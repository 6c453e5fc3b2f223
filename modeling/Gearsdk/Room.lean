import Gearsdk.Message
import Gearsdk.OrderedMap
import Gearsdk.Timer

/-! One room of the game server: its seats, the seats kept for players who have
dropped out, its countdown and its state. A room acts on the rest of the server
only through the calls it makes, in program order, on its interface, on the
observer, on connections and on Redis; every operation returns them as a list. -/
namespace Gearsdk
open Std

structure RoomConfig where
  minPlayers : Int := 1
  maxPlayers : Int := 1
  betAmountx : Int := 0
  rewardMultiplierx : Int := fxTwo
  allowJoinAfterStart : Bool := false

/-- The constructor from a received configuration. It leaves the bet amount and
the reward multiplier at their defaults. -/
def RoomConfig.ofMsg (roomConfigMsg : MsgRoomConfig) : RoomConfig :=
  { minPlayers := roomConfigMsg.min
    maxPlayers := roomConfigMsg.max
    allowJoinAfterStart := roomConfigMsg.allowAfterStart }

/-- A connection object: its address, and the hash of its connection id, which
is fixed when the object is made. -/
structure QconnIo where
  ptr : Nat
  cidHashVal : Nat
  deriving DecidableEq

structure Player where
  ptr : Nat
  qconnection : QconnIo
  pid : Qstring
  deriving DecidableEq

/-- A kept seat. The player object in it has a null connection. -/
structure DisconnectedPlayer where
  hash : Nat
  playerPtr : Nat
  pid : Qstring
  deriving DecidableEq

inductive States where
  | roomUninitialised | roomWaiting | roomStart | roomEnd
  deriving DecidableEq

def States.rank : States → Nat
  | .roomUninitialised => 0
  | .roomWaiting => 1
  | .roomStart => 2
  | .roomEnd => 3

/-- The dynamic type of a room object. -/
inductive RoomClass where
  | room | gameRoom | pluginGameRoom
  deriving DecidableEq

inductive RoomEvent where
  | roomEventCreate
  | roomEventStart
  | roomEventPlayerAdded (pid : Qstring) (cidHash : Nat)
  | roomEventMessage (pid : Qstring) (cidHash : Nat) (msg : Qstring)
  | roomEventPlayerRemoved (pid : Qstring) (cidHash : Nat)
  | roomEventEnd
  | roomEventCountdownToStart (count maxCount : Int)
  | roomEventCountdownCancelled
  deriving DecidableEq

structure RoomPlayer where
  hash : Nat
  flag : Bool
  pid : Qstring
  deriving DecidableEq

inductive ClientMessage where
  | playerAdd (roomId : Int) (players : List RoomPlayer) (self : Nat)
  | playerRemove (roomId : Int) (players : List RoomPlayer) (self : Nat)
  | roomStart (roomId : Int)
  | roomEnd (roomId : Int)
  | raw (msg : Qstring)
  deriving DecidableEq

inductive RoomCall where
  | onroomPreStart
  | observer (event : RoomEvent)
  | sendmessage (qconnection : QconnIo) (message : ClientMessage)
  | close (qconnection : QconnIo)
  | decrBy (key : Qstring) (delta : Int)
  deriving DecidableEq

structure Room where
  roomClass : RoomClass
  roomId : Int
  /-- In milliseconds of the event loop's clock. -/
  creationTime : Int
  roomConfig : RoomConfig
  state : States := .roomUninitialised
  playermap : TreeMap Nat Player := ∅
  disconnectedPlayers : List DisconnectedPlayer := []
  countDownTimer : Option Nat := none
  scheduler : QtimerScheduler := {}
  /-- The number of player objects this room has allocated. -/
  allocatedPlayers : Nat := 0

namespace Room

def players (r : Room) : List Player := r.playermap.toList.map Prod.snd

def getPlaymapCount (r : Room) : Int := r.playermap.size

def isMinCapacityReached (r : Room) : Bool := r.getPlaymapCount ≥ r.roomConfig.minPlayers

def sinceCreation (r : Room) (evNow : Int) : Int := evNow - r.creationTime

def getRoomSignature (r : Room) (prefixText : String) (hostId portId : Qstring) : Qstring :=
  Qstring.literal prefixText ++ hostId ++ Qstring.literal "#" ++ portId ++
    Qstring.literal "-" ++ Qstring.decimal r.roomConfig.minPlayers ++
    Qstring.literal "-" ++ Qstring.decimal r.roomConfig.maxPlayers ++
    Qstring.literal "-" ++ Qstring.decimal r.roomConfig.betAmountx ++
    Qstring.literal "-" ++ Qstring.decimal r.roomConfig.rewardMultiplierx

/-- Overridden by both room classes that a server creates. -/
def canAllowReconnection (r : Room) (_cidHash : Nat) : Bool :=
  match r.roomClass with
  | .room => false
  | .gameRoom | .pluginGameRoom => true

/-- Every player of the room receives the list of players, with the player that
the event is about flagged. -/
def sendEventPlayerAddOrRemove (r : Room) (p : Player) (add : Bool) : List RoomCall :=
  let players := r.players.map fun player =>
    { hash := player.qconnection.cidHashVal, flag := p.ptr = player.ptr,
      pid := player.pid : RoomPlayer }
  r.players.map fun player =>
    .sendmessage player.qconnection
      (if add then .playerAdd r.roomId players player.qconnection.cidHashVal
        else .playerRemove r.roomId players player.qconnection.cidHashVal)

def sendEventRoomStartOrEnd (r : Room) (roomStart : Bool) : List RoomCall :=
  r.players.map fun player =>
    .sendmessage player.qconnection (if roomStart then .roomStart r.roomId else .roomEnd r.roomId)

def onroomPlayerAdded (p : Player) : RoomCall :=
  .observer (.roomEventPlayerAdded p.pid p.qconnection.cidHashVal)

def onroomPlayerRemoved (p : Player) : RoomCall :=
  .observer (.roomEventPlayerRemoved p.pid p.qconnection.cidHashVal)

def kickAllExcept (r : Room) (qconnection : Option QconnIo) : List RoomCall :=
  (r.players.filter fun player => some player.qconnection ≠ qconnection).map fun player =>
    .close player.qconnection

/-- The server's callback runs before the players and the observer hear of the
start. -/
def onStateChange (r : Room) (prevState : States) : List RoomCall :=
  match r.state with
  | .roomUninitialised => []
  | .roomWaiting =>
      if prevState = .roomUninitialised then [.observer .roomEventCreate] else []
  | .roomStart =>
      .onroomPreStart :: (r.sendEventRoomStartOrEnd true ++ [.observer .roomEventStart])
  | .roomEnd => r.sendEventRoomStartOrEnd false ++ [.observer .roomEventEnd]

def setState (r : Room) (state : States) : Room × List RoomCall :=
  let prevState := r.state
  let r := { r with state }
  if prevState ≠ r.state then (r, r.onStateChange prevState) else (r, [])

/-- The constructor. -/
def create (roomClass : RoomClass) (roomId creationTime : Int) (roomConfig : RoomConfig) :
    Room × List RoomCall :=
  ({ roomClass, roomId, creationTime, roomConfig } : Room).setState .roomWaiting

/-- What the destructor does before the seats and the timers go away. -/
def destroy (r : Room) (hostId portId : Qstring) : List RoomCall :=
  let key := r.getRoomSignature (if r.state = .roomWaiting then "wroom:" else "room:") hostId portId
  r.kickAllExcept none ++ r.players.map onroomPlayerRemoved ++ [.decrBy key 1]

def findInDisconnectedPlayers (r : Room) (hash : Nat) : Option DisconnectedPlayer :=
  r.disconnectedPlayers.find? (·.hash = hash)

def removeFromDisconnectedPlayers (r : Room) (hash : Nat) : Room :=
  { r with disconnectedPlayers := r.disconnectedPlayers.eraseP (·.hash = hash) }

/-- The seat is kept under the hash of the connection that its player loses. -/
def addToDisconnectedPlayers (r : Room) (player : Player) : Room :=
  let newPlayer : DisconnectedPlayer :=
    { hash := player.qconnection.cidHashVal, playerPtr := player.ptr, pid := player.pid }
  { r with disconnectedPlayers := r.disconnectedPlayers ++ [newPlayer] }

/-- `if (cancel_and_destroy_timer(count_down_timer)) count_down_timer = nullptr` -/
def cancelCountDownTimer (r : Room) : Room :=
  let (scheduler, cancelled) := r.scheduler.cancelAndDestroyTimer r.countDownTimer
  { r with scheduler, countDownTimer := if cancelled then none else r.countDownTimer }

def maxCountDown : Int := 5

def delayBetweenCountDown : Nat := 1500

/-- A full room starts at once; one that has just enough players counts down. -/
def startOrCountDown (r : Room) : Room × List RoomCall :=
  if r.isMinCapacityReached ∧ r.state.rank < States.roomStart.rank then
    if r.getPlaymapCount = r.roomConfig.maxPlayers then
      r.cancelCountDownTimer.setState .roomStart
    else
      let (scheduler, _) := r.scheduler.cancelAndDestroyTimer r.countDownTimer
      let (scheduler, timer) := scheduler.scheduleCountTimer delayBetweenCountDown maxCountDown
      ({ r with scheduler, countDownTimer := some timer }, [])
  else (r, [])

structure AddResult where
  room : Room
  calls : List RoomCall
  /-- The number of seated players, or a negative error code. -/
  count : Int
  replacedByDisconnectedPlayer : Bool

/-- The successful end of `try_add_connection`. -/
def seatPlayer (r : Room) (player : Player) (replaced : Bool) : AddResult :=
  let r := { r with playermap := r.playermap.insert player.qconnection.cidHashVal player }
  let announced := r.sendEventPlayerAddOrRemove player true ++ [onroomPlayerAdded player]
  let (r, started) := r.startOrCountDown
  ⟨r, announced ++ started, r.getPlaymapCount, replaced⟩

def tryAddConnection (r : Room) (qconnection : QconnIo) (pid : Qstring) (prevCidHashVal : Nat) :
    AddResult :=
  if r.playermap.contains qconnection.cidHashVal then ⟨r, [], -2, false⟩
  else
    let disconnectedPlayerState :=
      if prevCidHashVal > 0 then r.findInDisconnectedPlayers prevCidHashVal else none
    let reconnection := disconnectedPlayerState.isSome
    if !reconnection && decide (r.state.rank > States.roomWaiting.rank) &&
        !r.roomConfig.allowJoinAfterStart then ⟨r, [], -3, false⟩
    else if r.getPlaymapCount ≥ r.roomConfig.maxPlayers then ⟨r, [], -4, false⟩
    else if reconnection && !r.canAllowReconnection qconnection.cidHashVal then ⟨r, [], -5, false⟩
    else
      match disconnectedPlayerState with
      | some seat =>
          let player : Player := { ptr := seat.playerPtr, qconnection, pid := seat.pid }
          (r.removeFromDisconnectedPlayers prevCidHashVal).seatPlayer player true
      | none =>
          let player : Player := { ptr := r.allocatedPlayers, qconnection, pid }
          ({ r with allocatedPlayers := r.allocatedPlayers + 1 } : Room).seatPlayer player false

/-- A leave that drops a waiting room below its minimum. The observer is told of
a cancelled countdown whether or not one was running. -/
def cancelCountDown (r : Room) : Room × List RoomCall :=
  if r.state.rank > States.roomUninitialised.rank ∧ r.state.rank < States.roomStart.rank ∧
      !r.isMinCapacityReached then
    (r.cancelCountDownTimer, [.observer .roomEventCountdownCancelled])
  else (r, [])

/-- A player leaving during the game ends it or keeps his seat for him. -/
def leaveGameplay (r : Room) (qconnection : QconnIo) (removedPlayer : Player) :
    Room × List RoomCall :=
  if r.state.rank ≥ States.roomStart.rank then
    if r.getPlaymapCount < r.roomConfig.minPlayers then
      let (r, ended) := r.setState .roomEnd
      (r, ended ++ r.kickAllExcept none)
    else if (r.findInDisconnectedPlayers qconnection.cidHashVal).isNone then
      (r.addToDisconnectedPlayers removedPlayer, [])
    else (r, [])
  else (r, [])

def removeConnection (r : Room) (qconnection : QconnIo) : Room × List RoomCall × Int :=
  match r.playermap[qconnection.cidHashVal]? with
  | none => (r.removeFromDisconnectedPlayers qconnection.cidHashVal, [], -1)
  | some removedPlayer =>
      let announced := r.sendEventPlayerAddOrRemove removedPlayer false
      let r := { r with playermap := r.playermap.erase qconnection.cidHashVal }
      let (r, cancelled) := r.cancelCountDown
      let (r, left) := r.leaveGameplay qconnection removedPlayer
      (r, announced ++ onroomPlayerRemoved removedPlayer :: (cancelled ++ left), r.getPlaymapCount)

/-- The callback that `try_add_connection` gives to its countdown timer. -/
def countDown (r : Room) (count : Int) : Room × List RoomCall :=
  if count > 0 then (r, [.observer (.roomEventCountdownToStart count maxCountDown)])
  else r.setState .roomStart

/-- One expiry of a timer of this room: the timer's own count, the callback, and
the destruction of the timer after its last tick. -/
def evtimerSchedulerCb (r : Room) (ptr : Nat) : Room × List RoomCall :=
  match r.scheduler.find ptr with
  | none => (r, [])
  | some timer =>
      let timer := timer.evtimerCb
      let (r, calls) :=
        ({ r with scheduler := r.scheduler.update timer } : Room).countDown timer.count
      if timer.finished then ({ r with scheduler := (r.scheduler.destroyTimer ptr).1 }, calls)
      else (r, calls)

def broadcastExcept (r : Room) (p : Player) (msg : Qstring) : List RoomCall :=
  if r.playermap.contains p.qconnection.cidHashVal then
    (r.playermap.toList.filter (·.1 ≠ p.qconnection.cidHashVal)).map fun entry =>
      .sendmessage entry.2.qconnection (.raw msg)
  else []

def broadcast (r : Room) (msg : Qstring) : List RoomCall :=
  r.players.map fun player => .sendmessage player.qconnection (.raw msg)

def sendto (r : Room) (p : Player) (msg : Qstring) : List RoomCall :=
  if r.playermap.contains p.qconnection.cidHashVal then [.sendmessage p.qconnection (.raw msg)]
    else []

def getPlayer (r : Room) (cidHash : Nat) : Option Player := r.playermap[cidHash]?

/-- `pass_message_to_room` hands the message to the room class. A game room also
relays it to the other players. -/
def passMessageToRoom (r : Room) (p : Player) (msg : Qstring) : List RoomCall :=
  .observer (.roomEventMessage p.pid p.qconnection.cidHashVal msg) ::
    match r.roomClass with
    | .gameRoom => r.broadcastExcept p msg
    | .room | .pluginGameRoom => []

end Room
end Gearsdk
