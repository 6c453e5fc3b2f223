import Gearsdk.Room.Invariant
import Gearsdk.Roomserver

/-! The effect on the server of the calls of one room operation: the log grows,
and if the operation starts the match, the room changes lists and counters. -/
namespace Gearsdk

/-- A call that only the log remembers. -/
def RoomCall.Silent : RoomCall → Prop
  | .observer _ | .sendmessage _ _ | .close _ => True
  | .onroomPreStart | .decrBy _ _ => False

namespace Room
variable {r r' : Room}

theorem silent_addOrRemove (r : Room) (p : Player) (add : Bool) :
    ∀ call ∈ r.sendEventPlayerAddOrRemove p add, call.Silent := by
  intro call sent
  obtain ⟨_, _, rfl⟩ := List.mem_map.mp sent
  trivial

theorem silent_startOrEnd (r : Room) (roomStart : Bool) :
    ∀ call ∈ r.sendEventRoomStartOrEnd roomStart, call.Silent := by
  intro call sent
  obtain ⟨_, _, rfl⟩ := List.mem_map.mp sent
  trivial

theorem silent_kickAll (r : Room) (except : Option QconnIo) :
    ∀ call ∈ r.kickAllExcept except, call.Silent := by
  intro call kicked
  obtain ⟨_, _, rfl⟩ := List.mem_map.mp kicked
  trivial

theorem silent_passMessage (r : Room) (p : Player) (msg : Qstring) :
    ∀ call ∈ r.passMessageToRoom p msg, call.Silent := by
  intro call passed
  rcases List.mem_cons.mp passed with rfl | relayed
  · trivial
  · cases roomClass : r.roomClass with
    | gameRoom =>
      simp only [roomClass, broadcastExcept] at relayed
      split at relayed
      · obtain ⟨_, _, rfl⟩ := List.mem_map.mp relayed
        trivial
      · contradiction
    | room | pluginGameRoom => simp [roomClass] at relayed

theorem silent_welcome (r : Room) (q : QconnIo) (pid : Qstring) (prev : Nat) :
    ∀ call ∈ r.welcome q pid prev, call.Silent := by
  intro call member
  rcases List.mem_append.mp member with sent | observed
  · exact silent_addOrRemove _ _ _ call sent
  · rw [List.mem_singleton.mp observed]
    trivial

theorem silent_farewell (r : Room) (player : Player) : ∀ call ∈ r.farewell player, call.Silent := by
  intro call member
  rcases List.mem_append.mp member with sent | observed
  · exact silent_addOrRemove _ _ _ call sent
  · rw [List.mem_singleton.mp observed]
    trivial

theorem silent_ending (r : Room) : ∀ call ∈ r.ending, call.Silent := by
  intro call member
  rcases List.mem_append.mp member with sent | rest
  · exact silent_startOrEnd _ _ call sent
  · rcases List.mem_cons.mp rest with rfl | kicked
    · trivial
    · exact silent_kickAll _ _ call kicked

/-- Apart from the callback that announces a start, the calls of an operation
only speak to players and the observer. -/
theorem Change.silent (change : Change r op r' calls) :
    ∀ call ∈ calls, call = .onroomPreStart ∨ call.Silent := by
  have starting : ∀ (r : Room) (call : RoomCall), call ∈ r.starting → call = .onroomPreStart ∨
      call.Silent := by
    intro r call member
    rcases List.mem_cons.mp member with rfl | rest
    · exact .inl rfl
    · rcases List.mem_append.mp rest with sent | observed
      · exact .inr (silent_startOrEnd _ _ call sent)
      · rw [List.mem_singleton.mp observed]
        exact .inr trivial
  intro call member
  cases change with
  | rejected | forgets | ignores => contradiction
  | seated | countsDown => exact .inr (silent_welcome _ _ _ _ call member)
  | fills =>
    rcases List.mem_append.mp member with first | second
    · exact .inr (silent_welcome _ _ _ _ call first)
    · exact starting _ call second
  | leaves | keeps | drops => exact .inr (silent_farewell _ _ call member)
  | cancels =>
    rcases List.mem_append.mp member with first | second
    · exact .inr (silent_farewell _ _ call first)
    · rw [List.mem_singleton.mp second]
      exact .inr trivial
  | ends =>
    rcases List.mem_append.mp member with first | second
    · exact .inr (silent_farewell _ _ call first)
    · exact .inr (silent_ending _ call second)
  | leavesEnded =>
    rcases List.mem_append.mp member with first | second
    · exact .inr (silent_farewell _ _ call first)
    · exact .inr (silent_kickAll _ _ call second)
  | ticks =>
    rw [List.mem_singleton.mp member]
    exact .inr trivial
  | lastTick => exact starting _ call member
  | relays => exact .inr (silent_passMessage _ _ _ call member)

theorem not_silent_preStart {calls : List RoomCall} (silent : ∀ call ∈ calls, call.Silent) :
    RoomCall.onroomPreStart ∉ calls :=
  fun member => silent _ member

/-- The callback runs exactly when the room goes from waiting to started. -/
theorem Change.preStart_iff (change : Change r op r' calls) :
    .onroomPreStart ∈ calls ↔ r.state = .roomWaiting ∧ r'.state = .roomStart := by
  cases change with
  | rejected | forgets | ignores => simp_all [removeFromDisconnectedPlayers]
  | @seated q pid prev =>
    refine iff_of_false (not_silent_preStart (silent_welcome _ _ _ _)) ?_
    rintro ⟨waiting, started⟩
    rw [occupied_state, waiting] at started
    contradiction
  | @countsDown q pid prev =>
    refine iff_of_false (not_silent_preStart (silent_welcome _ _ _ _)) ?_
    rintro ⟨waiting, started⟩
    rw [countingDown_state, occupied_state, waiting] at started
    contradiction
  | fills _ waiting =>
    exact iff_of_true (List.mem_append_right _ (List.mem_cons_self ..)) ⟨waiting, rfl⟩
  | @leaves q player | @keeps q player | @drops q player =>
    refine iff_of_false (not_silent_preStart (silent_farewell _ _)) ?_
    rintro ⟨waiting, started⟩
    simp [vacated, addToDisconnectedPlayers, waiting] at started
  | @cancels q player found waiting =>
    refine iff_of_false ?_ ?_
    · simpa using not_silent_preStart (silent_farewell r player)
    · rintro ⟨waiting, started⟩
      simp [vacated, waiting] at started
  | @ends q player =>
    refine iff_of_false ?_ ?_
    · rw [List.mem_append, not_or]
      exact ⟨not_silent_preStart (silent_farewell r player), not_silent_preStart (silent_ending _)⟩
    · rintro ⟨_, started⟩
      contradiction
  | @leavesEnded q player found ended =>
    refine iff_of_false ?_ ?_
    · rw [List.mem_append, not_or]
      exact ⟨not_silent_preStart (silent_farewell r player), not_silent_preStart (silent_kickAll _ _)⟩
    · rintro ⟨waiting, _⟩
      simp [ended] at waiting
  | ticks _ _ waiting =>
    refine iff_of_false (by simp) ?_
    rintro ⟨_, started⟩
    simp [waiting] at started
  | lastTick _ _ waiting => exact iff_of_true (List.mem_cons_self ..) ⟨waiting, rfl⟩
  | relays =>
    refine iff_of_false (not_silent_preStart (silent_passMessage _ _ _)) ?_
    rintro ⟨waiting, started⟩
    simp [waiting] at started

end Room

namespace Roomserver
variable {site : Site} {s : Roomserver} {p : Nat} {r : Room} {calls : List RoomCall}

theorem onroomPreStart_log (s : Roomserver) (p : Nat) (r : Room) (log : List (Nat × RoomCall)) :
    ({ s with log } : Roomserver).onroomPreStart site p r =
      { s.onroomPreStart site p r with log } := by
  simp only [onroomPreStart]
  split
  · rfl
  · split <;> rfl

theorem filter_absent {xs : List Nat} (absent : p ∉ xs) : xs.filter (· ≠ p) = xs := by
  apply List.filter_eq_self.mpr
  intro other member
  have different : other ≠ p := fun same => absent (same ▸ member)
  simpa using different

theorem filter_length_lt {xs : List Nat} (member : p ∈ xs) :
    (xs.filter (· ≠ p)).length < xs.length := by
  rw [List.length_filter_lt_length_iff_exists]
  exact ⟨p, member, by simp⟩

/-- A room that is not waiting is only complained about. -/
theorem onroomPreStart_absent (absent : p ∉ s.waitingRooms) : s.onroomPreStart site p r = s := by
  simp only [onroomPreStart, filter_absent absent, Nat.le_refl, if_true]

theorem onroomPreStart_waitingRooms (s : Roomserver) (p : Nat) (r : Room) :
    (s.onroomPreStart site p r).waitingRooms = s.waitingRooms.filter (· ≠ p) := by
  simp only [onroomPreStart]
  split
  · rfl
  · split <;> rfl

theorem onroomPreStart_twice (s : Roomserver) (p : Nat) (r : Room) :
    (s.onroomPreStart site p r).onroomPreStart site p r = s.onroomPreStart site p r :=
  onroomPreStart_absent (by simp [onroomPreStart_waitingRooms])

/-- One waiting room less: the counter is refreshed, or deleted with the last one. -/
def countWaitingDown (redis : Redis) (key : Qstring) : Redis :=
  let (hiredis, countWaitingRoomOfThisType) := redis.decrBy key 1
  if countWaitingRoomOfThisType > 0 then hiredis.expireKey key oneMinute else hiredis.deleteKey key

/-- One started room more: the counter is set for the room with id 0. -/
def countStarted (redis : Redis) (key : Qstring) (roomId : Int) : Redis :=
  if roomId = 0 then redis.setValue key 1 else (redis.incrBy key 1).1

/-- The counters after the start of a room. -/
def startCounters (site : Site) (redis : Redis) (r : Room) : Redis :=
  countStarted (countWaitingDown redis (wroomKey site r)) (roomKey site r) r.roomId

section
variable (redis : Redis) (key other : Qstring)

theorem countWaitingDown_cases :
    0 < redis.value key - 1 ∧
      countWaitingDown redis key = (redis.incrBy key (-1)).1.expireKey key oneMinute ∨
      redis.value key - 1 ≤ 0 ∧
        countWaitingDown redis key = (redis.incrBy key (-1)).1.deleteKey key := by
  by_cases more : 0 < redis.value key - 1
  · exact .inl ⟨more, if_pos more⟩
  · exact .inr ⟨Int.not_lt.mp more, if_neg more⟩

@[simp] theorem published_countWaitingDown :
    (countWaitingDown redis key).published = redis.published := by
  obtain ⟨_, same⟩ | ⟨_, same⟩ := countWaitingDown_cases redis key
  · rw [same, Redis.published_expireKey, Redis.published_incrBy]
  · rw [same, Redis.published_deleteKey, Redis.published_incrBy]

@[simp] theorem value_countWaitingDown : (countWaitingDown redis key).value other =
    if other = key then max (redis.value key - 1) 0 else redis.value other := by
  obtain ⟨more, same⟩ | ⟨last, same⟩ := countWaitingDown_cases redis key
  · rw [same, Redis.value_expireKey, Redis.value_incrBy, Int.max_eq_left (Int.le_of_lt more)]
    rfl
  · rw [same, Redis.value_deleteKey, Redis.value_incrBy, Int.max_eq_right last]
    split <;> rfl

theorem store_countWaitingDown_ne (different : other ≠ key) :
    (countWaitingDown redis key).store other = redis.store other := by
  obtain ⟨_, same⟩ | ⟨_, same⟩ := countWaitingDown_cases redis key
  · rw [same, Redis.store_expireKey_ne _ different, Redis.store_incrBy_ne _ different]
  · rw [same, Redis.store_deleteKey_ne different, Redis.store_incrBy_ne _ different]

/-- An absent counter goes to minus one and is deleted again. -/
theorem store_countWaitingDown_absent (absent : redis.store key = none) :
    (countWaitingDown redis key).store key = none := by
  have zero : redis.value key = 0 := by simp [Redis.value, absent]
  obtain ⟨more, _⟩ | ⟨_, same⟩ := countWaitingDown_cases redis key
  · omega
  · rw [same]
    exact if_pos rfl

theorem canExpire_of_countWaitingDown
    (expirable : (countWaitingDown redis key).canExpire other = true) :
    other = key ∨ redis.canExpire other = true := by
  obtain ⟨_, same⟩ | ⟨_, same⟩ := countWaitingDown_cases redis key
  · rw [same] at expirable
    exact (Redis.canExpire_of_expireKey expirable).imp id fun before =>
      by rwa [Redis.canExpire_incrBy] at before
  · rw [same] at expirable
    have before := Redis.canExpire_of_put none rfl expirable
    exact .inr (by rwa [Redis.canExpire_incrBy] at before)

@[simp] theorem published_countStarted (roomId : Int) :
    (countStarted redis key roomId).published = redis.published := by
  simp only [countStarted]
  split <;> rfl

@[simp] theorem value_countStarted (roomId : Int) : (countStarted redis key roomId).value other =
    if other = key then if roomId = 0 then 1 else redis.value key + 1 else redis.value other := by
  simp only [countStarted]
  split <;> simp

theorem store_countStarted_ne (roomId : Int) (different : other ≠ key) :
    (countStarted redis key roomId).store other = redis.store other := by
  simp only [countStarted]
  split
  · exact Redis.store_setValue_ne _ different
  · exact Redis.store_incrBy_ne _ different

theorem canExpire_of_countStarted (roomId : Int)
    (expirable : (countStarted redis key roomId).canExpire other = true) :
    redis.canExpire other = true := by
  simp only [countStarted] at expirable
  split at expirable
  · exact Redis.canExpire_of_put (some _) rfl expirable
  · rwa [Redis.canExpire_incrBy] at expirable

end

theorem onroomPreStart_waiting (waiting : p ∈ s.waitingRooms) (unstarted : p ∉ s.rooms) :
    s.onroomPreStart site p r = { s with
      waitingRooms := s.waitingRooms.filter (· ≠ p)
      rooms := s.rooms ++ [p]
      hiredis := startCounters site s.hiredis r } := by
  have shrinks : ¬ s.waitingRooms.length ≤ (s.waitingRooms.filter (· ≠ p)).length :=
    Nat.not_le.mpr (filter_length_lt waiting)
  have fresh : ¬ s.rooms.contains p = true := by simpa using unstarted
  simp only [onroomPreStart, if_neg shrinks, if_neg fresh]
  rfl

theorem performAll_append (s : Roomserver) (p : Nat) (r : Room) (first second : List RoomCall) :
    s.performAll site p r (first ++ second) = (s.performAll site p r first).performAll site p r second :=
  List.foldl_append

theorem performAll_eq (quiet : ∀ call ∈ calls, call = .onroomPreStart ∨ call.Silent) :
    s.performAll site p r calls =
      { (if .onroomPreStart ∈ calls then s.onroomPreStart site p r else s) with
        log := s.log ++ calls.map fun call => (p, call) } := by
  induction calls generalizing s with
  | nil => simp [performAll]
  | cons call rest ih =>
    have later := fun call member => quiet call (List.mem_cons_of_mem _ member)
    change (s.perform site p r call).performAll site p r rest = _
    rw [ih later]
    rcases quiet call (List.mem_cons_self ..) with rfl | silent
    · have here : s.perform site p r .onroomPreStart =
          { s.onroomPreStart site p r with log := s.log ++ [(p, .onroomPreStart)] } :=
        onroomPreStart_log s p r _
      rw [here, onroomPreStart_log, onroomPreStart_twice]
      simp
    · have here : s.perform site p r call = { s with log := s.log ++ [(p, call)] } := by
        cases call <;> first | rfl | contradiction
      have other : call ≠ .onroomPreStart := by
        rintro rfl
        exact silent
      rw [here, onroomPreStart_log]
      by_cases starts : .onroomPreStart ∈ rest
      · simp [starts]
      · simp [starts, Ne.symm other]

theorem performAll_silent (silent : ∀ call ∈ calls, call.Silent) :
    s.performAll site p r calls = { s with log := s.log ++ calls.map fun call => (p, call) } := by
  rw [performAll_eq fun call member => .inr (silent call member),
    if_neg (Room.not_silent_preStart silent)]

theorem updateRoom_eq (change : Room.Change r op r' calls) :
    s.updateRoom site p r' calls =
      { (if r.state = .roomWaiting ∧ r'.state = .roomStart then s.onroomPreStart site p r' else s) with
        roomHeap := s.roomHeap.insert p r'
        log := s.log ++ calls.map fun call => (p, call) } := by
  have heap : ∀ heap : Std.TreeMap Nat Room,
    ({ s with roomHeap := heap } : Roomserver).onroomPreStart site p r' =
      { s.onroomPreStart site p r' with roomHeap := heap } := by
    intro heap
    simp only [onroomPreStart]
    split
    · rfl
    · split <;> rfl
  simp only [updateRoom]
  rw [performAll_eq change.silent]
  simp only [change.preStart_iff]
  split
  · rw [heap]
  · rfl

/-- An operation that does not start the match changes no list and no counter. -/
theorem updateRoom_stays (change : Room.Change r op r' calls)
    (stays : ¬ (r.state = .roomWaiting ∧ r'.state = .roomStart)) :
    s.updateRoom site p r' calls =
      { s with
        roomHeap := s.roomHeap.insert p r'
        log := s.log ++ calls.map fun call => (p, call) } := by
  rw [updateRoom_eq change, if_neg stays]

theorem updateRoom_starts (change : Room.Change r op r' calls) (waited : r.state = .roomWaiting)
    (started : r'.state = .roomStart) (waiting : p ∈ s.waitingRooms) (unstarted : p ∉ s.rooms) :
    s.updateRoom site p r' calls =
      { s with
        roomHeap := s.roomHeap.insert p r'
        waitingRooms := s.waitingRooms.filter (· ≠ p)
        rooms := s.rooms ++ [p]
        hiredis := startCounters site s.hiredis r'
        log := s.log ++ calls.map fun call => (p, call) } := by
  rw [updateRoom_eq change, if_pos ⟨waited, started⟩, onroomPreStart_waiting waiting unstarted]

/-- What no operation on a room touches. -/
theorem updateRoom_frame (site : Site) (s : Roomserver) (p : Nat)
    (change : Room.Change r op r' calls) :
    (s.updateRoom site p r' calls).roomHeap = s.roomHeap.insert p r' ∧
    (s.updateRoom site p r' calls).log = s.log ++ calls.map (fun call => (p, call)) ∧
    (s.updateRoom site p r' calls).conns = s.conns ∧
    (s.updateRoom site p r' calls).connectionMap = s.connectionMap ∧
    (s.updateRoom site p r' calls).newConnections = s.newConnections ∧
    (s.updateRoom site p r' calls).roomIdCounter = s.roomIdCounter := by
  have frame : (s.onroomPreStart site p r').conns = s.conns ∧
      (s.onroomPreStart site p r').connectionMap = s.connectionMap ∧
      (s.onroomPreStart site p r').newConnections = s.newConnections ∧
      (s.onroomPreStart site p r').roomIdCounter = s.roomIdCounter := by
    simp only [onroomPreStart]
    split
    · exact ⟨rfl, rfl, rfl, rfl⟩
    · split <;> exact ⟨rfl, rfl, rfl, rfl⟩
  rw [updateRoom_eq change]
  split
  · exact ⟨rfl, rfl, frame⟩
  · exact ⟨rfl, rfl, rfl, rfl, rfl, rfl⟩

theorem deleteRoom_eq (s : Roomserver) (p : Nat) (r : Room) :
    s.deleteRoom site p r = { s with
      roomHeap := s.roomHeap.erase p
      hiredis := (s.hiredis.decrBy (r.getRoomSignature
        (if r.state = .roomWaiting then "wroom:" else "room:") site.hostId site.portId) 1).1
      log := s.log ++ (r.destroy site.hostId site.portId).map fun call => (p, call) } := by
  have silent : ∀ call ∈ r.kickAllExcept none ++ r.players.map Room.onroomPlayerRemoved,
      call.Silent := by
    intro call member
    rcases List.mem_append.mp member with kicked | removed
    · exact Room.silent_kickAll _ _ call kicked
    · obtain ⟨_, _, rfl⟩ := List.mem_map.mp removed
      trivial
  simp only [deleteRoom, Room.destroy]
  rw [performAll_append, performAll_silent silent]
  simp only [performAll, perform, List.foldl_cons, List.foldl_nil, List.map_append, List.map_cons,
    List.map_nil, List.append_assoc]

end Roomserver
end Gearsdk
