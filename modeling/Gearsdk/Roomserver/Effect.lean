import Gearsdk.Roomserver.Calls

/-! What one event does to a server. `Effect` has one constructor for each path
through the handlers that does not end in a fault, with the conditions under
which the path is taken and the state it leads to. -/
namespace Gearsdk.Roomserver
open Std

/-- The message event of `ptr` reaches `process_match_request` and deserialises. -/
structure Requests (s : Roomserver) (ptr : Nat) (doc : Option Json) (connection : Connection)
    (rq : MsgRoomMatchRequest) : Prop where
  found : s.conns[ptr]? = some connection
  unmatched : connection.roomConfigReceived = false
  listed : s.newConnections.contains ptr = true
  greeted : (!connection.firstHiReceived && decide (deserializeFirstHiMessage doc = 0)) = false
  parsed : ∃ obj sig tCrc, doc = some obj ∧ deserializeHeader doc = .ok (sig, tCrc) ∧
    messageHandlers tCrc = some .processMatchRequest ∧ MsgRoomMatchRequest.deserialize obj = some rq

/-- The state in which `do_process_roomjoin` runs. -/
def matched (s : Roomserver) (ptr : Nat) (connection : Connection) : Roomserver :=
  { s with
    conns := s.conns.insert ptr { connection with roomConfigReceived := true }
    newConnections := s.newConnections.erase ptr }

/-- Where a match request ends. -/
inductive JoinOutcome where
  | alreadySeated
  /-- With the previous hash that the room is asked with. -/
  | joins (room prevCidHashVal : Nat)
  | creates
  deriving DecidableEq

/-- The first waiting room that takes a new player. -/
def firstAccepting (s : Roomserver) (cidHash : Nat) : List Nat → Except Fault (Option Nat)
  | [] => .ok none
  | room :: rest =>
      match s.deref room with
      | .error fault => .error fault
      | .ok r => if r.accepts cidHash 0 then .ok (some room) else s.firstAccepting cidHash rest

def joinOutcome (s : Roomserver) (qconnection : QconnIo) (msg : MsgRoomMatchRequest) :
    Except Fault JoinOutcome :=
  match s.targetRoom qconnection msg with
  | .error fault => .error fault
  | .ok (some (room, r)) =>
      if r.playermap.contains qconnection.cidHashVal then .ok .alreadySeated
      else if r.accepts qconnection.cidHashVal msg.prevCidHashVal then
        .ok (.joins room msg.prevCidHashVal)
      else .ok .creates
  | .ok none =>
      match s.firstAccepting qconnection.cidHashVal s.waitingRooms with
      | .error fault => .error fault
      | .ok (some room) => .ok (.joins room 0)
      | .ok none => .ok .creates

section
variable {site : Site} {s t : Roomserver}

theorem deref_ok : s.deref p = .ok r ↔ s.roomHeap[p]? = some r := by
  simp only [deref]
  cases s.roomHeap[p]? <;> simp

theorem findRoom_matched (s : Roomserver) (ptr : Nat) (connection : Connection) (roomId : Int)
    (rooms : List Nat) :
    (s.matched ptr connection).findRoom roomId rooms = s.findRoom roomId rooms := by
  induction rooms with
  | nil => rfl
  | cons room rest ih =>
    simp only [findRoom, ih]
    rfl

theorem targetRoom_matched (s : Roomserver) (ptr : Nat) (connection : Connection) (q : QconnIo)
    (msg : MsgRoomMatchRequest) :
    (s.matched ptr connection).targetRoom q msg = s.targetRoom q msg := by
  simp only [targetRoom, findPreviousRoom]
  rw [findRoom_matched]
  rfl

theorem firstAccepting_matched (s : Roomserver) (ptr : Nat) (connection : Connection)
    (cidHash : Nat) (rooms : List Nat) :
    (s.matched ptr connection).firstAccepting cidHash rooms = s.firstAccepting cidHash rooms := by
  induction rooms with
  | nil => rfl
  | cons room rest ih =>
    simp only [firstAccepting, ih]
    rfl

theorem joinOutcome_matched (s : Roomserver) (ptr : Nat) (connection : Connection) (q : QconnIo)
    (msg : MsgRoomMatchRequest) :
    (s.matched ptr connection).joinOutcome q msg = s.joinOutcome q msg := by
  simp only [joinOutcome]
  rw [targetRoom_matched, firstAccepting_matched]
  rfl

theorem tryAddConnection_count {r : Room} {q : QconnIo} (pid : Qstring) (prev : Nat) :
    (r.tryAddConnection q pid prev).count > r.getPlaymapCount ↔
      r.accepts q.cidHashVal prev = true := by
  have seats : 0 ≤ r.getPlaymapCount := Int.natCast_nonneg _
  cases accepted : r.accepts q.cidHashVal prev with
  | false =>
    obtain ⟨code, negative, _, same⟩ := Room.tryAddConnection_rejected pid accepted
    rw [same]
    refine iff_of_false ?_ (by simp)
    change ¬ code > r.getPlaymapCount
    omega
  | true =>
    have grows := Room.getPlaymapCount_occupied pid prev (Room.absent_of_accepts accepted)
    rw [Room.tryAddConnection_accepted accepted]
    refine iff_of_true ?_ rfl
    change (r.occupied q pid prev).startOrCountDown.1.getPlaymapCount > r.getPlaymapCount
    have same : (r.occupied q pid prev).startOrCountDown.1.getPlaymapCount =
        (r.occupied q pid prev).getPlaymapCount := by
      obtain ⟨_, idle⟩ | ⟨_, ⟨_, starts⟩ | ⟨_, counts⟩⟩ :=
        (r.occupied q pid prev).startOrCountDown_cases
      · rw [idle]
      · rw [starts]
        rfl
      · rw [counts]
        rfl
    omega

theorem joinWaitingRoom_eq (site : Site) (s : Roomserver) (q : QconnIo) (pid : Qstring)
    (rooms : List Nat) :
    s.joinWaitingRoom site q pid rooms =
      match s.firstAccepting q.cidHashVal rooms with
      | .error fault => .error fault
      | .ok none => .ok none
      | .ok (some room) =>
          match s.deref room with
          | .error fault => .error fault
          | .ok r =>
              let s := s.updateRoom site room (r.apply (.tryAdd q pid 0)).1 (r.apply (.tryAdd q pid 0)).2
              .ok (some { s with connectionMap := s.connectionMap.insert q.cidHashVal room }) := by
  induction rooms with
  | nil => rfl
  | cons room rest ih =>
    simp only [joinWaitingRoom, firstAccepting]
    cases found : s.deref room with
    | error fault => rfl
    | ok r =>
      simp only [tryAddConnection_count]
      cases accepted : r.accepts q.cidHashVal 0 with
      | false => simpa using ih
      | true =>
        simp only [if_true, found]
        rfl

/-- The branches of `do_process_roomjoin`. On two of them the entry of the
connection itself may have been erased before it is written again. -/
inductive Joined (site : Site) (s : Roomserver) (q : QconnIo) (msg : MsgRoomMatchRequest) :
    Roomserver → Prop where
  | alreadySeated (outcome : s.joinOutcome q msg = .ok .alreadySeated) : Joined site s q msg s
  | joins {room prev : Nat} {r : Room} {base : TreeMap Nat Nat}
      (outcome : s.joinOutcome q msg = .ok (.joins room prev))
      (found : s.roomHeap[room]? = some r) (accepted : r.accepts q.cidHashVal prev = true)
      (same : ∀ cidHash, cidHash ≠ q.cidHashVal → base[cidHash]? = s.connectionMap[cidHash]?) :
      Joined site s q msg
        { s.updateRoom site room (r.apply (.tryAdd q msg.pid prev)).1
            (r.apply (.tryAdd q msg.pid prev)).2 with
          connectionMap := base.insert q.cidHashVal room }
  | creates {base : TreeMap Nat Nat} (outcome : s.joinOutcome q msg = .ok .creates)
      (same : ∀ cidHash, cidHash ≠ q.cidHashVal → base[cidHash]? = s.connectionMap[cidHash]?) :
      Joined site s q msg (({ s with connectionMap := base } : Roomserver).joinNewRoom site q msg)

theorem perform_connectionMap (s : Roomserver) (base : TreeMap Nat Nat) (room : Nat) (r : Room)
    (call : RoomCall) :
    ({ s with connectionMap := base } : Roomserver).perform site room r call =
      { s.perform site room r call with connectionMap := base } := by
  cases call with
  | onroomPreStart =>
    simp only [perform, onroomPreStart]
    split
    · rfl
    · split <;> rfl
  | observer | sendmessage | close | decrBy => rfl

theorem performAll_connectionMap (s : Roomserver) (base : TreeMap Nat Nat) (room : Nat) (r : Room)
    (calls : List RoomCall) :
    ({ s with connectionMap := base } : Roomserver).performAll site room r calls =
      { s.performAll site room r calls with connectionMap := base } := by
  induction calls generalizing s with
  | nil => rfl
  | cons call rest ih =>
    change (({ s with
      connectionMap := base } : Roomserver).perform site room r call).performAll site room r rest = _
    rw [perform_connectionMap, ih]
    rfl

theorem updateRoom_connectionMap (s : Roomserver) (base : TreeMap Nat Nat) (room : Nat) (r : Room)
    (calls : List RoomCall) :
    ({ s with connectionMap := base } : Roomserver).updateRoom site room r calls =
      { s.updateRoom site room r calls with connectionMap := base } :=
  performAll_connectionMap { s with roomHeap := s.roomHeap.insert room r } base room r calls

theorem connectionMap_updateRoom (s : Roomserver) (room : Nat) (r : Room) (calls : List RoomCall) :
    (s.updateRoom site room r calls).connectionMap = s.connectionMap := by
  have same : s.updateRoom site room r calls = { s.updateRoom site room r calls with
      connectionMap := s.connectionMap } := updateRoom_connectionMap s s.connectionMap room r calls
  rw [same]

theorem perform_conns (s : Roomserver) (room : Nat) (r : Room) (call : RoomCall) :
    (s.perform site room r call).conns = s.conns := by
  cases call with
  | onroomPreStart =>
    simp only [perform, onroomPreStart]
    split
    · rfl
    · split <;> rfl
  | observer | sendmessage | close | decrBy => rfl

theorem conns_updateRoom (s : Roomserver) (room : Nat) (r : Room) (calls : List RoomCall) :
    (s.updateRoom site room r calls).conns = s.conns := by
  have kept : ∀ s : Roomserver, (s.performAll site room r calls).conns = s.conns := by
    induction calls with
    | nil => exact fun _ => rfl
    | cons call rest ih => exact fun s => (ih _).trans (perform_conns s room r call)
  exact kept _

theorem firstAccepting_some (search : s.firstAccepting cidHash candidates = .ok (some room)) :
    room ∈ candidates ∧ ∃ r, s.roomHeap[room]? = some r ∧ r.accepts cidHash 0 = true := by
  induction candidates with
  | nil => simp [firstAccepting] at search
  | cons first rest ih =>
    simp only [firstAccepting] at search
    cases found : s.deref first with
    | error fault => simp [found] at search
    | ok r =>
      simp only [found] at search
      split at search
      · rename_i accepted
        obtain rfl : first = room := by simpa using search
        exact ⟨List.mem_cons_self .., r, deref_ok.mp found, accepted⟩
      · obtain ⟨member, others⟩ := ih search
        exact ⟨List.mem_cons_of_mem _ member, others⟩

theorem findRoom_some (search : s.findRoom roomId candidates = .ok (some (room, r))) :
    room ∈ candidates ∧ s.roomHeap[room]? = some r ∧ r.roomId = roomId := by
  induction candidates with
  | nil => simp [findRoom] at search
  | cons first rest ih =>
    simp only [findRoom] at search
    cases found : s.deref first with
    | error fault => simp [found] at search
    | ok other =>
      simp only [found] at search
      split at search
      · rename_i same
        obtain ⟨rfl, rfl⟩ : first = room ∧ other = r := by simpa using search
        exact ⟨List.mem_cons_self .., deref_ok.mp found, same⟩
      · obtain ⟨member, others⟩ := ih search
        exact ⟨List.mem_cons_of_mem _ member, others⟩

/-- The room of a request that names one: a started room that still keeps the
seat it asks for. -/
theorem findPreviousRoom_some (search : s.findPreviousRoom msg = .ok (some (room, r))) :
    0 ≤ msg.roomId ∧ room ∈ s.rooms ∧ s.roomHeap[room]? = some r ∧ r.roomId = msg.roomId ∧
      r.state.rank < States.roomEnd.rank ∧ (r.findInDisconnectedPlayers msg.prevCidHashVal).isSome =
        true := by
  simp only [findPreviousRoom] at search
  split at search
  · rename_i named
    cases found : s.findRoom msg.roomId s.rooms with
    | error fault => simp [found] at search
    | ok entry =>
      cases entry with
      | none => simp [found] at search
      | some entry =>
        obtain ⟨other, r'⟩ := entry
        simp only [found] at search
        split at search
        · rename_i kept
          obtain ⟨rfl, rfl⟩ : other = room ∧ r' = r := by simpa using search
          obtain ⟨member, live, same⟩ := findRoom_some found
          exact ⟨named, member, live, same, kept.1, kept.2⟩
        · simp at search
  · simp at search

theorem targetRoom_some (target : s.targetRoom q msg = .ok (some (room, r))) :
    s.roomHeap[room]? = some r ∧
      (s.connectionMap[q.cidHashVal]? = some room ∨
        s.connectionMap[q.cidHashVal]? = none ∧ s.findPreviousRoom msg = .ok (some (room, r))) := by
  simp only [targetRoom] at target
  cases mapped : s.connectionMap[q.cidHashVal]? with
  | none =>
    simp only [mapped] at target
    exact ⟨(findPreviousRoom_some target).2.2.1, .inr ⟨rfl, target⟩⟩
  | some own =>
    simp only [mapped] at target
    cases found : s.deref own with
    | error fault => simp [found] at target
    | ok r' =>
      obtain ⟨rfl, rfl⟩ : own = room ∧ r' = r := by simpa [found] using target
      exact ⟨deref_ok.mp found, .inl rfl⟩

theorem lookup_erase_other (map : TreeMap Nat Nat) (cidHash : Nat) :
    ∀ other, other ≠ cidHash → (map.erase cidHash)[other]? = map[other]? :=
  fun _ different => OrderedMap.lookup_erase_ne map (Ne.symm different)

theorem doProcessRoomjoin_joined (joined : s.doProcessRoomjoin site q msg = .ok t) :
    Joined site s q msg t := by
  simp only [doProcessRoomjoin] at joined
  cases target : s.targetRoom q msg with
  | error fault => simp [target] at joined
  | ok found =>
    cases found with
    | none =>
      simp only [target, joinWaitingRoom_eq] at joined
      cases search : s.firstAccepting q.cidHashVal s.waitingRooms with
      | error fault => simp [search] at joined
      | ok accepting =>
        cases accepting with
        | none =>
          simp only [search, Except.ok.injEq] at joined
          subst joined
          have outcome : s.joinOutcome q msg = .ok .creates := by
            simp only [joinOutcome, target, search]
          exact .creates outcome fun _ _ => rfl
        | some room =>
          obtain ⟨_, r, found, accepted⟩ := firstAccepting_some search
          simp only [search, deref_ok.mpr found, Except.ok.injEq] at joined
          subst joined
          have outcome : s.joinOutcome q msg = .ok (.joins room 0) := by
            simp only [joinOutcome, target, search]
          rw [connectionMap_updateRoom]
          exact .joins outcome found accepted fun _ _ => rfl
    | some entry =>
      obtain ⟨room, r⟩ := entry
      have found := (targetRoom_some target).1
      simp only [target] at joined
      cases seated : r.playermap.contains q.cidHashVal with
      | true =>
        simp only [seated, if_true, Except.ok.injEq] at joined
        subst joined
        exact .alreadySeated (by simp only [joinOutcome, target, seated, if_true])
      | false =>
        have counted : (r.tryAddConnection q msg.pid msg.prevCidHashVal).count ≠ -2 := by
          cases accepted : r.accepts q.cidHashVal msg.prevCidHashVal with
          | false =>
            obtain ⟨code, _, present, same⟩ := Room.tryAddConnection_rejected msg.pid accepted
            rw [same]
            intro error
            rw [present.mp error] at seated
            contradiction
          | true =>
            have seats : 0 ≤ r.getPlaymapCount := Int.natCast_nonneg _
            have grows := (tryAddConnection_count msg.pid msg.prevCidHashVal).mpr accepted
            omega
        simp only [seated, Bool.false_eq_true, if_false, if_neg counted,
          tryAddConnection_count] at joined
        cases accepted : r.accepts q.cidHashVal msg.prevCidHashVal with
        | false =>
          simp only [accepted, Bool.false_eq_true, if_false, Except.ok.injEq] at joined
          subst joined
          have outcome : s.joinOutcome q msg = .ok .creates := by
            simp [joinOutcome, target, seated, accepted]
          exact .creates outcome (lookup_erase_other _ _)
        | true =>
          simp only [accepted, if_true, Except.ok.injEq] at joined
          subst joined
          have outcome : s.joinOutcome q msg = .ok (.joins room msg.prevCidHashVal) := by
            simp [joinOutcome, target, seated, accepted]
          rw [connectionMap_updateRoom, updateRoom_connectionMap]
          exact .joins outcome found accepted (lookup_erase_other _ _)

end

/-! ### Effects of events -/

/-- The players and kept seats of a zombie leave the registry. -/
def forgotten (s : Roomserver) (zombie : Room) : Roomserver :=
  { s with
    connectionMap := (zombie.playermap.keys ++ zombie.disconnectedPlayers.map (·.hash)).foldl
      (fun map hash => map.erase hash) s.connectionMap
    newConnections := (zombie.players.map (·.qconnection.ptr) ++
      zombie.disconnectedPlayers.map fun _ =>
        nullptr).foldl (fun map ptr => map.erase ptr) s.newConnections }

/-- The state after the sweep of one zombie. -/
def swept (site : Site) (s : Roomserver) (room : Nat) (zombie : Room) : Roomserver :=
  ({ s.forgotten zombie with
    waitingRooms := s.waitingRooms.filter (· ≠ room)
    rooms :=
      if s.waitingRooms.length = (s.waitingRooms.filter (· ≠ room)).length then
        s.rooms.filter (· ≠ room)
      else s.rooms } : Roomserver).deleteRoom site room zombie

/-- The zombies of one sweep go one after the other. -/
inductive Sweeps (site : Site) : Roomserver → List Nat → Roomserver → Prop where
  | done (s) : Sweeps site s [] s
  | next {s t : Roomserver} {room : Nat} {zombie : Room} {zombies : List Nat}
      (found : s.roomHeap[room]? =
        some zombie) (rest : Sweeps site (s.swept site room zombie) zombies t) :
      Sweeps site s (room :: zombies) t

/-- A waiting room or a started room that is too old. -/
def Zombie (s : Roomserver) (room : Nat) : Prop :=
  ∃ r, s.roomHeap[room]? = some r ∧
    (room ∈ s.waitingRooms ∧ zombieWaitingRoomTimeout ≤ r.sinceCreation s.evNow ∨
      room ∈ s.rooms ∧ zombieRoomTimeout ≤ r.sinceCreation s.evNow)

/-- The seat of a lost connection is given up. -/
def vacates (site : Site) (s : Roomserver) (q : QconnIo) (room : Nat) (r : Room) : Roomserver :=
  ({ s with connectionMap := s.connectionMap.erase q.cidHashVal } : Roomserver).updateRoom site room
    (r.apply (.remove q)).1 (r.apply (.remove q)).2

inductive Effect (site : Site) (s : Roomserver) : Event → Roomserver → Prop where
  | connect {ptr cidHashVal : Nat} (nonnull : ptr ≠ nullptr) (fresh : ptr ∉ s.conns) :
      Effect site s (.connect ptr cidHashVal) { s with conns := s.conns.insert ptr { cidHashVal } }
  | connected {ptr : Nat} {connection : Connection} (found : s.conns[ptr]? = some connection)
      (unestablished : connection.connectionEstablished = false) :
      Effect site s (.connected ptr)
        { s with
          conns := s.conns.insert ptr { connection with connectionEstablished := true }
          newConnections := s.newConnections.insert ptr s.evNow }
  | hi {ptr : Nat} {connection : Connection} (found : s.conns[ptr]? = some connection)
      (listed : s.newConnections.contains ptr = true) :
      Effect site s (.message ptr buf doc)
        { s with conns := s.conns.insert ptr { connection with firstHiReceived := true } }
  | ignored : Effect site s (.message ptr buf doc) s
  | shutdown : Effect site s (.message ptr buf doc)
      { s with newConnections := s.newConnections.erase ptr, loopBroken := true }
  | request {ptr : Nat} {connection : Connection} (requests : Requests s ptr doc connection rq)
      (joined : Joined site (s.matched ptr connection) ⟨ptr, connection.cidHashVal⟩ rq t) :
      Effect site s (.message ptr buf doc) t
  | chat {ptr room : Nat} {connection : Connection} {r : Room}
      (found : s.conns[ptr]? = some connection)
      (mapped : s.connectionMap[connection.cidHashVal]? = some room) (live : s.roomHeap[room]? = some r)
      (present : r.playermap.contains connection.cidHashVal = true) :
      Effect site s (.message ptr buf doc)
        (s.updateRoom site room (r.apply (.message connection.cidHashVal buf)).1
          (r.apply (.message connection.cidHashVal buf)).2)
  | unseated {ptr : Nat} {connection : Connection} (found : s.conns[ptr]? = some connection)
      (unmapped : s.connectionMap[connection.cidHashVal]? = none) :
      Effect site s (.destroyConnection ptr) { s with conns := s.conns.erase ptr }
  | leaves {ptr room : Nat} {connection : Connection} {r : Room}
      (found : s.conns[ptr]? = some connection)
      (mapped : s.connectionMap[connection.cidHashVal]? = some room) (live : s.roomHeap[room]? = some r)
      (stays : ¬ ((r.apply (.remove ⟨ptr, connection.cidHashVal⟩)).1.state = .roomEnd ∧
        (r.apply (.remove ⟨ptr, connection.cidHashVal⟩)).1.getPlaymapCount = 0)) :
      Effect site s (.destroyConnection ptr)
        { s.vacates site ⟨ptr, connection.cidHashVal⟩ room r with conns := s.conns.erase ptr }
  | leavesLast {ptr room : Nat} {connection : Connection} {r : Room}
      (found : s.conns[ptr]? = some connection)
      (mapped : s.connectionMap[connection.cidHashVal]? = some room) (live : s.roomHeap[room]? = some r)
      (ended : (r.apply (.remove ⟨ptr, connection.cidHashVal⟩)).1.state = .roomEnd)
      (empty : (r.apply (.remove ⟨ptr, connection.cidHashVal⟩)).1.getPlaymapCount = 0)
      (same : t = s.vacates site ⟨ptr, connection.cidHashVal⟩ room r)
      (listed : t.waitingRooms.length = (t.waitingRooms.filter (· ≠ room)).length ∧
        t.rooms.length > (t.rooms.filter (· ≠ room)).length) :
      Effect site s (.destroyConnection ptr)
        { (({ t with
            waitingRooms := t.waitingRooms.filter (· ≠ room)
            rooms := t.rooms.filter (· ≠ room) } : Roomserver).deleteRoom site room
              (r.apply (.remove ⟨ptr, connection.cidHashVal⟩)).1) with conns := s.conns.erase ptr }
  | tick {room timer : Nat} {r : Room} (live : s.roomHeap[room]? = some r)
      (active : r.allows (.tick timer) = true) :
      Effect site s (.countDownTimer room timer)
        (s.updateRoom site room (r.apply (.tick timer)).1 (r.apply (.tick timer)).2)
  | sweeps (sweeps : Sweeps site s zombies t) (listed : ∀ room ∈ zombies, s.Zombie room) :
      Effect site s .checkZombieRooms t
  | clock : Effect site s (.clock now) { s with evNow := now }
  | keyExpires {key : Qstring} (expirable : s.hiredis.canExpire key = true) :
      Effect site s (.keyExpires key) { s with hiredis := s.hiredis.expire key }
  | keyExpired {key : Qstring} {count : Nat} (published : key ∈ s.hiredis.published)
      (counted : s.countSignature site key s.waitingRooms = .ok count) :
      Effect site s (.keyExpired key)
        { s with hiredis :=
            if count > 0 then
              (((s.hiredis.takeNotification key).incrBy key count).1).expireKey key oneMinute
            else s.hiredis.takeNotification key }

section
variable {site : Site} {s t : Roomserver}

theorem requests_joined (requests : Requests s ptr doc connection rq) (buf : Qstring) :
    s.onconnectionMessage site ptr connection buf doc =
      (s.matched ptr connection).doProcessRoomjoin site ⟨ptr, connection.cidHashVal⟩ rq := by
  obtain ⟨obj, sig, tCrc, rfl, header, handler, deserialized⟩ := requests.parsed
  have opened : (!connection.roomConfigReceived && s.newConnections.contains ptr) = true := by
    simp [requests.unmatched, requests.listed]
  simp only [onconnectionMessage, opened, if_true, requests.greeted, Bool.false_eq_true, if_false,
    dispatch, header, handler, processMatchRequest, deserialized]
  rfl

theorem Requests.joined (requests : Requests s ptr doc connection rq)
    (step : (machine site).Step s (.message ptr buf doc) t) :
    Joined site (s.matched ptr connection) ⟨ptr, connection.cidHashVal⟩ rq t := by
  have moved := step.2
  simp only [machine, next, requests.found, requests_joined requests] at moved
  exact doProcessRoomjoin_joined moved

theorem message_effect (found : s.conns[ptr]? = some connection)
    (handled : s.onconnectionMessage site ptr connection buf doc = .ok t) :
    Effect site s (.message ptr buf doc) t := by
  cases opened : !connection.roomConfigReceived && s.newConnections.contains ptr with
  | false =>
    simp only [onconnectionMessage, opened, Bool.false_eq_true, if_false, passToRoom] at handled
    cases mapped : s.connectionMap[connection.cidHashVal]? with
    | none =>
      obtain rfl : s = t := by simpa [mapped] using handled
      exact .ignored
    | some room =>
      cases live : s.deref room with
      | error fault => simp [mapped, live] at handled
      | ok r =>
        cases present : r.playermap[connection.cidHashVal]? with
        | none =>
          obtain rfl : s = t := by simpa [mapped, live, present] using handled
          exact .ignored
        | some player =>
          simp only [mapped, live, present, Except.ok.injEq] at handled
          subst handled
          have told : r.apply (.message connection.cidHashVal buf) =
              (r, r.passMessageToRoom player buf) := by
            simp only [Room.apply, present]
          have chat : Effect site s (.message ptr buf doc) _ :=
            .chat found mapped (deref_ok.mp live)
              (TreeMap.mem_iff_contains.mp (OrderedMap.mem_of_lookup present))
          rwa [told] at chat
  | true =>
    simp only [onconnectionMessage, opened, if_true] at handled
    simp only [Bool.and_eq_true, Bool.not_eq_true'] at opened
    cases greeted : !connection.firstHiReceived && decide (deserializeFirstHiMessage doc = 0) with
    | true =>
      simp only [greeted, if_true, Except.ok.injEq] at handled
      subst handled
      exact .hi found opened.2
    | false =>
      simp only [greeted, Bool.false_eq_true, if_false, dispatch] at handled
      cases doc with
      | none =>
        obtain rfl : s = t := by simpa using handled
        exact .ignored
      | some obj =>
        cases header : deserializeHeader (some obj) with
        | error code =>
          obtain rfl : s = t := by simpa [header] using handled
          exact .ignored
        | ok read =>
          obtain ⟨sig, tCrc⟩ := read
          cases handler : messageHandlers tCrc with
          | none =>
            obtain rfl : s = t := by simpa [header, handler] using handled
            exact .ignored
          | some handlerName =>
            cases handlerName with
            | processShutdownRequest =>
              simp only [header, handler, Except.ok.injEq] at handled
              subst handled
              exact .shutdown
            | processMatchRequest =>
              simp only [header, handler, processMatchRequest] at handled
              cases deserialized : MsgRoomMatchRequest.deserialize obj with
              | none =>
                obtain rfl : s = t := by simpa [deserialized] using handled
                exact .ignored
              | some rq =>
                simp only [deserialized] at handled
                exact .request
                  ⟨found, opened.1, opened.2, greeted, obj, sig, tCrc, rfl, header, handler,
                    deserialized⟩
                  (doProcessRoomjoin_joined handled)

/-- The seat of the connection is given up before its room may be deleted. -/
theorem onconnectionDestroy_entered {q : QconnIo}
    (mapped : s.connectionMap[q.cidHashVal]? = some room) (live : s.roomHeap[room]? = some r) :
    s.onconnectionDestroy site q =
      (s.vacates site q room r).deleteEndedRoom site room (r.apply (.remove q)).1 := by
  have same : ({ s with connectionMap := s.connectionMap.erase q.cidHashVal } : Roomserver).deref room =
      .ok r := deref_ok.mpr live
  simp only [onconnectionDestroy, mapped, same]
  rfl

theorem destroy_effect (found : s.conns[ptr]? = some connection)
    (destroyed : s.destroyConnection site ptr connection = .ok t) :
    Effect site s (.destroyConnection ptr) t := by
  cases mapped : s.connectionMap[connection.cidHashVal]? with
  | none =>
    simp only [destroyConnection, onconnectionDestroy, mapped, Except.ok.injEq] at destroyed
    subst destroyed
    exact .unseated found mapped
  | some room =>
    cases live : s.roomHeap[room]? with
    | none => simp [destroyConnection, onconnectionDestroy, mapped, deref, live] at destroyed
    | some r =>
      have kept : (s.vacates site ⟨ptr, connection.cidHashVal⟩ room r).conns = s.conns := by
        simp only [vacates]
        rw [conns_updateRoom]
      rw [destroyConnection, onconnectionDestroy_entered mapped live] at destroyed
      by_cases ended : (r.apply (.remove ⟨ptr, connection.cidHashVal⟩)).1.state = .roomEnd ∧
          (r.apply (.remove ⟨ptr, connection.cidHashVal⟩)).1.getPlaymapCount = 0
      · simp only [deleteEndedRoom, if_pos ended] at destroyed
        split at destroyed
        · contradiction
        · rename_i deleted
          split at deleted
          · rename_i listed
            cases deleted
            cases destroyed
            have gone := Effect.leavesLast found mapped live ended.1 ended.2 rfl listed
            rw [deleteRoom_eq] at gone ⊢
            simpa only [kept] using gone
          · contradiction
      · simp only [deleteEndedRoom, if_neg ended, Except.ok.injEq] at destroyed
        subst destroyed
        rw [kept]
        exact .leaves found mapped live ended

theorem zombiesAmong_old (found : s.zombiesAmong timeout candidates = .ok zombies)
    (member : room ∈ zombies) :
    room ∈ candidates ∧ ∃ r, s.roomHeap[room]? = some r ∧ timeout ≤ r.sinceCreation s.evNow := by
  induction candidates generalizing zombies with
  | nil =>
    obtain rfl : [] = zombies := by simpa [zombiesAmong] using found
    contradiction
  | cons first rest ih =>
    simp only [zombiesAmong] at found
    split at found
    · rename_i r others live searched
      cases found
      split at member
      · rename_i old
        rcases List.mem_cons.mp member with rfl | later
        · exact ⟨List.mem_cons_self .., r, deref_ok.mp live, old⟩
        · obtain ⟨inside, aged⟩ := ih searched later
          exact ⟨List.mem_cons_of_mem _ inside, aged⟩
      · obtain ⟨inside, aged⟩ := ih searched member
        exact ⟨List.mem_cons_of_mem _ inside, aged⟩
    · contradiction
    · contradiction

theorem sweepZombies_sweeps (done : s.sweepZombies site zombies = .ok t) :
    Sweeps site s zombies t := by
  induction zombies generalizing s with
  | nil =>
    obtain rfl : s = t := by simpa [sweepZombies] using done
    exact .done s
  | cons room rest ih =>
    cases live : s.roomHeap[room]? with
    | none => simp [sweepZombies, sweepZombie, deref, live] at done
    | some zombie =>
      have first : s.sweepZombie site room = .ok (s.swept site room zombie) := by
        simp only [sweepZombie, deref_ok.mpr live]
        rfl
      simp only [sweepZombies, first] at done
      exact .next live (ih done)

theorem checkZombieRooms_effect (checked : s.onTimerCheckZombieRooms site = .ok t) :
    Effect site s .checkZombieRooms t := by
  simp only [onTimerCheckZombieRooms] at checked
  split at checked
  · rename_i waiting started waitingFound startedFound
    refine .sweeps (sweepZombies_sweeps checked) fun room member => ?_
    rcases List.mem_append.mp member with old | old
    · obtain ⟨inside, r, live, aged⟩ := zombiesAmong_old waitingFound old
      exact ⟨r, live, .inl ⟨inside, aged⟩⟩
    · obtain ⟨inside, r, live, aged⟩ := zombiesAmong_old startedFound old
      exact ⟨r, live, .inr ⟨inside, aged⟩⟩
  · contradiction
  · contradiction

theorem countSignature_notified (s : Roomserver) (redis : Redis) (key : Qstring)
    (candidates : List Nat) :
    ({ s with hiredis := redis } : Roomserver).countSignature site key candidates =
      s.countSignature site key candidates := by
  induction candidates with
  | nil => rfl
  | cons room rest ih =>
    simp only [countSignature, ih]
    rfl

theorem keyExpired_effect (published : key ∈ s.hiredis.published)
    (delivered : ({ s with
    hiredis := s.hiredis.takeNotification key } : Roomserver).onQhiredisAsyncKeyExpired site
      key = .ok t) : Effect site s (.keyExpired key) t := by
  simp only [onQhiredisAsyncKeyExpired, countSignature_notified] at delivered
  cases counted : s.countSignature site key s.waitingRooms with
  | error fault => simp [counted] at delivered
  | ok count =>
    simp only [counted] at delivered
    have effect := Effect.keyExpired published counted
    split at delivered
    · rename_i positive
      cases delivered
      rwa [if_pos positive] at effect
    · rename_i zero
      cases delivered
      rwa [if_neg zero] at effect

/-- Every step has one of the listed effects. -/
theorem step_effect (step : (machine site).Step s e t) : Effect site s e t := by
  obtain ⟨possible, moved⟩ := step
  change s.enabled e = true at possible
  change next site s e = .ok t at moved
  cases e with
  | connect ptr cidHashVal =>
    obtain rfl := Except.ok.inj moved
    simp only [enabled, Bool.and_eq_true, decide_eq_true_eq, Bool.not_eq_true'] at possible
    exact .connect possible.1 fun member => by simp [TreeMap.mem_iff_contains, possible.2] at member
  | connected ptr =>
    cases found : s.conns[ptr]? with
    | none => simp [enabled, found] at possible
    | some connection =>
      simp only [next, found, Except.ok.injEq] at moved
      subst moved
      exact .connected found (by simpa [enabled, found] using possible)
  | message ptr buf doc =>
    cases found : s.conns[ptr]? with
    | none => simp [enabled, found] at possible
    | some connection =>
      simp only [next, found] at moved
      exact message_effect found moved
  | destroyConnection ptr =>
    cases found : s.conns[ptr]? with
    | none => simp [enabled, ← TreeMap.isSome_getElem?_eq_contains, found] at possible
    | some connection =>
      simp only [next, found] at moved
      exact destroy_effect found moved
  | countDownTimer room timer =>
    cases live : s.roomHeap[room]? with
    | none => simp [enabled, live] at possible
    | some r =>
      simp only [next, onCountDownTimer, deref_ok.mpr live, Except.ok.injEq] at moved
      subst moved
      exact .tick live (by simpa [enabled, live, Room.allows] using possible)
  | checkZombieRooms => exact checkZombieRooms_effect moved
  | clock now =>
    obtain rfl := Except.ok.inj moved
    exact .clock
  | keyExpires key =>
    obtain rfl := Except.ok.inj moved
    exact .keyExpires possible
  | keyExpired key =>
    simp only [enabled, List.contains_iff_mem] at possible
    exact keyExpired_effect possible moved

end
end Gearsdk.Roomserver
