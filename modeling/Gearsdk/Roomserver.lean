import Gearsdk.Hiredis
import Gearsdk.Room
import Gearsdk.Transition

/-! The room server: its connections, its registry of rooms and players, and one
step for every event that reaches it while it serves. `on_network_server_end`,
which deletes the rooms that are left when the process ends, is no such event.
Rooms and connections are heap objects. A room is named by the number of its
construction, so a stale room pointer never names a later room; a connection is
named by its address, which the allocator may use again. Dereferencing a deleted
room ends the run in a fault. -/
namespace Gearsdk
open Std

/-- What a server is started with: the room class its `create_room` makes, and
the identifiers that appear in its Redis keys. -/
structure Site where
  roomClass : RoomClass
  hostId : Qstring
  portId : Qstring

structure Connection where
  cidHashVal : Nat
  connectionEstablished : Bool := false
  /-- `FLAG_ROOM_CONFIG_RECEIVED` of `user_data`. -/
  roomConfigReceived : Bool := false
  /-- `FLAG_FIRST_HI_RECEIVED` of `user_data`. -/
  firstHiReceived : Bool := false
  deriving DecidableEq

inductive Fault where
  | useAfterFree (room : Nat)
  | assertFailed
  deriving DecidableEq

structure Roomserver where
  conns : TreeMap Nat Connection := ∅
  roomHeap : TreeMap Nat Room := ∅
  waitingRooms : List Nat := []
  /-- The keys of `rooms`, which maps every room to itself. -/
  rooms : List Nat := []
  connectionMap : TreeMap Nat Nat := ∅
  newConnections : TreeMap Nat Int := ∅
  roomIdCounter : Nat := 0
  hiredis : Redis := {}
  /-- In milliseconds. -/
  evNow : Int := 0
  loopBroken : Bool := false
  /-- Every call that a room has made so far, with the room that made it. -/
  log : List (Nat × RoomCall) := []

inductive Handler where
  | processMatchRequest | processShutdownRequest

namespace Roomserver

def nullptr : Nat := 0

def zombieWaitingRoomTimeout : Int := 20 * 1000

def zombieRoomTimeout : Int := 60 * 60 * 1000

def oneMinute : Nat := 1 * 60

def deref (s : Roomserver) (room : Nat) : Except Fault Room :=
  match s.roomHeap[room]? with
  | some r => .ok r
  | none => .error (.useAfterFree room)

variable (site : Site)

def wroomKey (r : Room) : Qstring := r.getRoomSignature "wroom:" site.hostId site.portId

def roomKey (r : Room) : Qstring := r.getRoomSignature "room:" site.hostId site.portId

def onroomPreStart (s : Roomserver) (room : Nat) (r : Room) : Roomserver :=
  let waitingRooms := s.waitingRooms.filter (· ≠ room)
  if s.waitingRooms.length ≤ waitingRooms.length then { s with waitingRooms }
  else
    let (hiredis, countWaitingRoomOfThisType) := s.hiredis.decrBy (wroomKey site r) 1
    let hiredis :=
      if countWaitingRoomOfThisType > 0 then hiredis.expireKey (wroomKey site r) oneMinute
      else hiredis.deleteKey (wroomKey site r)
    if s.rooms.contains room then { s with waitingRooms, hiredis }
    else
      let hiredis :=
        if r.roomId = 0 then hiredis.setValue (roomKey site r) 1
        else (hiredis.incrBy (roomKey site r) 1).1
      { s with waitingRooms, rooms := s.rooms ++ [room], hiredis }

/-- The effect on the server of one call that a room makes. -/
def perform (s : Roomserver) (room : Nat) (r : Room) (call : RoomCall) : Roomserver :=
  let s := { s with log := s.log ++ [(room, call)] }
  match call with
  | .onroomPreStart => s.onroomPreStart site room r
  | .decrBy key delta => { s with hiredis := (s.hiredis.decrBy key delta).1 }
  | .observer _ | .sendmessage _ _ | .close _ => s

def performAll (s : Roomserver) (room : Nat) (r : Room) (calls : List RoomCall) : Roomserver :=
  calls.foldl (fun s call => s.perform site room r call) s

/-- A room operation took the room to `r` and made these calls. -/
def updateRoom (s : Roomserver) (room : Nat) (r : Room) (calls : List RoomCall) : Roomserver :=
  ({ s with roomHeap := s.roomHeap.insert room r } : Roomserver).performAll site room r calls

def deleteRoom (s : Roomserver) (room : Nat) (r : Room) : Roomserver :=
  let s := s.performAll site room r (r.destroy site.hostId site.portId)
  { s with roomHeap := s.roomHeap.erase room }

def findRoom (s : Roomserver) (roomId : Int) : List Nat → Except Fault (Option (Nat × Room))
  | [] => .ok none
  | room :: rest =>
      match s.deref room with
      | .error fault => .error fault
      | .ok r => if r.roomId = roomId then .ok (some (room, r)) else s.findRoom roomId rest

/-- The search over the waiting rooms. A room that does not take the player is
left as it was; the search ends at the first room that does. -/
def joinWaitingRoom (s : Roomserver) (qconnection : QconnIo) (pid : Qstring) :
    List Nat → Except Fault (Option Roomserver)
  | [] => .ok none
  | room :: rest =>
      match s.deref room with
      | .error fault => .error fault
      | .ok waitingRoom =>
          let added := waitingRoom.tryAddConnection qconnection pid 0
          if added.count > waitingRoom.getPlaymapCount then
            let s := s.updateRoom site room added.room added.calls
            .ok (some { s with connectionMap := s.connectionMap.insert qconnection.cidHashVal room })
          else s.joinWaitingRoom qconnection pid rest

def createRoom (s : Roomserver) (roomConfigMsg : MsgRoomConfig) : Roomserver × Nat × Room :=
  let room := s.roomIdCounter
  let (r, calls) := Room.create site.roomClass room s.evNow (.ofMsg roomConfigMsg)
  (({ s with roomIdCounter := room + 1 } : Roomserver).updateRoom site room r calls, room, r)

def createWaitingRoom (s : Roomserver) (roomConfigMsg : MsgRoomConfig) : Roomserver × Nat × Room :=
  let (s, room, r) := s.createRoom site roomConfigMsg
  let hiredis := ((s.hiredis.incrBy (wroomKey site r) 1).1).expireKey (wroomKey site r) oneMinute
  ({ s with waitingRooms := s.waitingRooms ++ [room], hiredis }, room, r)

/-- The last part of `do_process_roomjoin`. The result of `try_add_connection` is
not looked at: the connection is entered for the new room in any case. -/
def joinNewRoom (s : Roomserver) (qconnection : QconnIo) (msg : MsgRoomMatchRequest) : Roomserver :=
  let (s, room, r) := s.createWaitingRoom site msg.roomConfig
  let added := r.tryAddConnection qconnection msg.pid 0
  let s := s.updateRoom site room added.room added.calls
  { s with connectionMap := s.connectionMap.insert qconnection.cidHashVal room }

/-- The room that a request asks to return to, if that room still keeps a seat
under the given hash. -/
def findPreviousRoom (s : Roomserver) (msg : MsgRoomMatchRequest) :
    Except Fault (Option (Nat × Room)) :=
  if msg.roomId ≥ 0 then
    match s.findRoom msg.roomId s.rooms with
    | .error fault => .error fault
    | .ok none => .ok none
    | .ok (some (room, r)) =>
        if r.state.rank < States.roomEnd.rank ∧
            (r.findInDisconnectedPlayers msg.prevCidHashVal).isSome then .ok (some (room, r))
        else .ok none
  else .ok none

/-- The room of the connection itself, else the room it asks to return to. -/
def targetRoom (s : Roomserver) (qconnection : QconnIo) (msg : MsgRoomMatchRequest) :
    Except Fault (Option (Nat × Room)) :=
  match s.connectionMap[qconnection.cidHashVal]? with
  | some room =>
      match s.deref room with
      | .error fault => .error fault
      | .ok r => .ok (some (room, r))
  | none => s.findPreviousRoom msg

def doProcessRoomjoin (s : Roomserver) (qconnection : QconnIo) (msg : MsgRoomMatchRequest) :
    Except Fault Roomserver :=
  match s.targetRoom qconnection msg with
  | .error fault => .error fault
  | .ok none =>
      match s.joinWaitingRoom site qconnection msg.pid s.waitingRooms with
      | .error fault => .error fault
      | .ok (some joined) => .ok joined
      | .ok none => .ok (s.joinNewRoom site qconnection msg)
  | .ok (some (room, r)) =>
      if r.playermap.contains qconnection.cidHashVal then .ok s
      else
        let added := r.tryAddConnection qconnection msg.pid msg.prevCidHashVal
        if added.count = -2 then .ok s
        else
          let s := { s with connectionMap := s.connectionMap.erase qconnection.cidHashVal }
          if added.count > r.getPlaymapCount then
            let s := s.updateRoom site room added.room added.calls
            .ok { s with connectionMap := s.connectionMap.insert qconnection.cidHashVal room }
          else .ok (s.joinNewRoom site qconnection msg)

/-- A request that does not deserialise changes nothing. -/
def processMatchRequest (s : Roomserver) (ptr : Nat) (connection : Connection) (doc : Json) :
    Except Fault Roomserver :=
  match MsgRoomMatchRequest.deserialize doc with
  | none => .ok s
  | some rq =>
      let s := { s with
        conns := s.conns.insert ptr { connection with roomConfigReceived := true }
        newConnections := s.newConnections.erase ptr }
      s.doProcessRoomjoin site ⟨ptr, connection.cidHashVal⟩ rq

/-- `ev_break` only marks the loop; events already being processed still run. -/
def processShutdownRequest (s : Roomserver) (ptr : Nat) (doc : Json) : Roomserver :=
  let _ := MsgRoomServerShutdown.deserialize doc
  { s with newConnections := s.newConnections.erase ptr, loopBroken := true }

def messageHandlers (tCrc : Nat) : Option Handler :=
  if tCrc = typeStringCrc "msg_room_match_request" then some .processMatchRequest
  else if tCrc = typeStringCrc "msg_room_server_shutdown" then some .processShutdownRequest
  else none

def dispatch (s : Roomserver) (ptr : Nat) (connection : Connection) (doc : Option Json) :
    Except Fault Roomserver :=
  match doc, deserializeHeader doc with
  | some obj, .ok (_, tCrc) =>
      match messageHandlers tCrc with
      | some .processMatchRequest => s.processMatchRequest site ptr connection obj
      | some .processShutdownRequest => .ok (s.processShutdownRequest ptr obj)
      | none => .ok s
  | _, _ => .ok s

/-- A message of a connection that is matched, or that is not a new one. -/
def passToRoom (s : Roomserver) (connection : Connection) (buf : Qstring) :
    Except Fault Roomserver :=
  match s.connectionMap[connection.cidHashVal]? with
  | none => .ok s
  | some room =>
      match s.deref room with
      | .error fault => .error fault
      | .ok r =>
          match r.playermap[connection.cidHashVal]? with
          | none => .ok s
          | some player => .ok (s.updateRoom site room r (r.passMessageToRoom player buf))

def onconnectionMessage (s : Roomserver) (ptr : Nat) (connection : Connection) (buf : Qstring)
    (doc : Option Json) : Except Fault Roomserver :=
  if !connection.roomConfigReceived && s.newConnections.contains ptr then
    if !connection.firstHiReceived && deserializeFirstHiMessage doc = 0 then
      .ok { s with conns := s.conns.insert ptr { connection with firstHiReceived := true } }
    else s.dispatch site ptr connection doc
  else s.passToRoom site connection buf

def onconnectionConnected (s : Roomserver) (ptr : Nat) : Roomserver :=
  { s with newConnections := s.newConnections.insert ptr s.evNow }

/-- A room that has ended and lost its last player is deleted. -/
def deleteEndedRoom (s : Roomserver) (room : Nat) (r : Room) : Except Fault Roomserver :=
  if r.state = .roomEnd ∧ r.getPlaymapCount = 0 then
    let waitingRooms := s.waitingRooms.filter (· ≠ room)
    let rooms := s.rooms.filter (· ≠ room)
    if s.waitingRooms.length = waitingRooms.length ∧ s.rooms.length > rooms.length then
      .ok (({ s with waitingRooms, rooms } : Roomserver).deleteRoom site room r)
    else .error .assertFailed
  else .ok s

def onconnectionDestroy (s : Roomserver) (qconnection : QconnIo) : Except Fault Roomserver :=
  match s.connectionMap[qconnection.cidHashVal]? with
  | none => .ok s
  | some room =>
      let s := { s with connectionMap := s.connectionMap.erase qconnection.cidHashVal }
      match s.deref room with
      | .error fault => .error fault
      | .ok r =>
          let (r, calls, _) := r.removeConnection qconnection
          (s.updateRoom site room r calls).deleteEndedRoom site room r

def destroyConnection (s : Roomserver) (ptr : Nat) (connection : Connection) :
    Except Fault Roomserver :=
  match s.onconnectionDestroy site ⟨ptr, connection.cidHashVal⟩ with
  | .error fault => .error fault
  | .ok s => .ok { s with conns := s.conns.erase ptr }

def zombiesAmong (s : Roomserver) (timeout : Int) : List Nat → Except Fault (List Nat)
  | [] => .ok []
  | room :: rest =>
      match s.deref room, s.zombiesAmong timeout rest with
      | .ok r, .ok zombies =>
          .ok (if r.sinceCreation s.evNow ≥ timeout then room :: zombies else zombies)
      | .error fault, _ | _, .error fault => .error fault

/-- A zombie leaves the lists, its players leave the registry, and it is deleted.
A kept seat has a null connection. -/
def sweepZombie (s : Roomserver) (room : Nat) : Except Fault Roomserver :=
  match s.deref room with
  | .error fault => .error fault
  | .ok zombie =>
      let waitingRooms := s.waitingRooms.filter (· ≠ room)
      let rooms :=
        if s.waitingRooms.length = waitingRooms.length then s.rooms.filter (· ≠ room) else s.rooms
      let hashes := zombie.playermap.keys ++ zombie.disconnectedPlayers.map (·.hash)
      let connections := zombie.players.map (·.qconnection.ptr) ++
        zombie.disconnectedPlayers.map fun _ => nullptr
      let s := { s with
        waitingRooms, rooms
        connectionMap := hashes.foldl (fun map hash => map.erase hash) s.connectionMap
        newConnections := connections.foldl (fun map ptr => map.erase ptr) s.newConnections }
      .ok (s.deleteRoom site room zombie)

def sweepZombies (s : Roomserver) : List Nat → Except Fault Roomserver
  | [] => .ok s
  | room :: rest =>
      match s.sweepZombie site room with
      | .error fault => .error fault
      | .ok s => s.sweepZombies rest

def onTimerCheckZombieRooms (s : Roomserver) : Except Fault Roomserver :=
  match s.zombiesAmong zombieWaitingRoomTimeout s.waitingRooms,
      s.zombiesAmong zombieRoomTimeout s.rooms with
  | .ok waiting, .ok started => s.sweepZombies site (waiting ++ started)
  | .error fault, _ | _, .error fault => .error fault

def countSignature (s : Roomserver) (key : Qstring) : List Nat → Except Fault Nat
  | [] => .ok 0
  | room :: rest =>
      match s.deref room, s.countSignature key rest with
      | .ok r, .ok count => .ok (if wroomKey site r = key then count + 1 else count)
      | .error fault, _ | _, .error fault => .error fault

def onQhiredisAsyncKeyExpired (s : Roomserver) (expiredKey : Qstring) : Except Fault Roomserver :=
  match s.countSignature site expiredKey s.waitingRooms with
  | .error fault => .error fault
  | .ok count =>
      if count > 0 then
        .ok { s with
          hiredis := ((s.hiredis.incrBy expiredKey count).1).expireKey expiredKey oneMinute }
      else .ok s

/-- One expiry of the countdown timer of a room. -/
def onCountDownTimer (s : Roomserver) (room timer : Nat) : Except Fault Roomserver :=
  match s.deref room with
  | .error fault => .error fault
  | .ok r =>
      let (r, calls) := r.evtimerSchedulerCb timer
      .ok (s.updateRoom site room r calls)

end Roomserver

/-- What reaches the server from outside. A message comes with the result of
parsing its buffer. `clock` moves the event loop's time. -/
inductive Event where
  | connect (ptr cidHashVal : Nat)
  | connected (ptr : Nat)
  | message (ptr : Nat) (buf : Qstring) (doc : Option Json)
  | destroyConnection (ptr : Nat)
  | countDownTimer (room timer : Nat)
  | checkZombieRooms
  | clock (now : Int)
  | keyExpires (key : Qstring)
  | keyExpired (key : Qstring)

namespace Roomserver

/-- The network layer reports a connection only while its object exists and
messages only once it is established; the event loop fires active timers of
live rooms; Redis expires keys that have a lifetime. -/
def enabled (s : Roomserver) : Event → Bool
  | .connect ptr _ => ptr ≠ nullptr && !s.conns.contains ptr
  | .connected ptr => (s.conns[ptr]?).any fun connection => !connection.connectionEstablished
  | .message ptr _ _ => (s.conns[ptr]?).any (·.connectionEstablished)
  | .destroyConnection ptr => s.conns.contains ptr
  | .countDownTimer room timer => (s.roomHeap[room]?).any (·.scheduler.isActive timer)
  | .checkZombieRooms | .clock _ => true
  | .keyExpires key => s.hiredis.canExpire key
  | .keyExpired key => s.hiredis.published.contains key

def next (site : Site) (s : Roomserver) : Event → Except Fault Roomserver
  | .connect ptr cidHashVal => .ok { s with conns := s.conns.insert ptr { cidHashVal } }
  | .connected ptr =>
      match s.conns[ptr]? with
      | none => .ok s
      | some connection =>
          let conns := s.conns.insert ptr { connection with connectionEstablished := true }
          .ok (({ s with conns } : Roomserver).onconnectionConnected ptr)
  | .message ptr buf doc =>
      match s.conns[ptr]? with
      | none => .ok s
      | some connection => s.onconnectionMessage site ptr connection buf doc
  | .destroyConnection ptr =>
      match s.conns[ptr]? with
      | none => .ok s
      | some connection => s.destroyConnection site ptr connection
  | .countDownTimer room timer => s.onCountDownTimer site room timer
  | .checkZombieRooms => s.onTimerCheckZombieRooms site
  | .clock now => .ok { s with evNow := now }
  | .keyExpires key => .ok { s with hiredis := s.hiredis.expire key }
  | .keyExpired key =>
      ({ s with
        hiredis := s.hiredis.takeNotification key } : Roomserver).onQhiredisAsyncKeyExpired site key

/-- A server that has just been started, on a Redis without its keys. -/
def machine (site : Site) : Transition.Machine Roomserver Event Fault where
  init := {}
  enabled s event := s.enabled event = true
  next := next site

instance (site : Site) (s : Roomserver) (event : Event) :
    Decidable ((machine site).enabled s event) :=
  inferInstanceAs (Decidable (_ = true))

end Roomserver
end Gearsdk
