import Gearsdk.Room.Trace
import Gearsdk.Roomserver

/-! A game server that was spawned from a script. The observer of the server runs
on the server's thread and enters each of its calls in the queue of one
thread-safe function; there is a queue for each type of call, and the script
thread takes the next entry from whichever of them it comes to. -/
namespace Gearsdk
open Std

/-- The `type` of the payload, by which the callback is chosen. -/
def RoomEvent.type : RoomEvent → Nat
  | .roomEventCreate => 5
  | .roomEventStart => 6
  | .roomEventPlayerAdded _ _ => 7
  | .roomEventMessage _ _ _ => 8
  | .roomEventPlayerRemoved _ _ => 9
  | .roomEventEnd => 10
  | .roomEventCountdownToStart _ _ => 11
  | .roomEventCountdownCancelled => 12

/-- The observer passes its strings on as C strings, and the payload copies them. -/
def RoomEvent.copied : RoomEvent → RoomEvent
  | .roomEventPlayerAdded pid cidHash => .roomEventPlayerAdded (Qstring.cString pid) cidHash
  | .roomEventMessage pid cidHash msg =>
    .roomEventMessage (Qstring.cString pid) cidHash (Qstring.cString msg)
  | .roomEventPlayerRemoved pid cidHash => .roomEventPlayerRemoved (Qstring.cString pid) cidHash
  | event => event

/-- The event of a room stands for the fields that its type uses. Nothing reads
`seq`, which numbers the payloads as they are made. -/
structure CallbackPayload where
  seq : Nat
  room : Nat
  event : RoomEvent
  deriving DecidableEq

/-- The class `gameserver` of the script: the entry of its server in `rooms`, with
the rooms that have an interface there. -/
structure ScriptGameserver where
  rooms : Option (List Nat) := none

namespace ScriptGameserver

def onServerStart (g : ScriptGameserver) : ScriptGameserver :=
  match g.rooms with
  | none => { rooms := some [] }
  | some _ => g

def roomEventCreate (g : ScriptGameserver) (room : Nat) : ScriptGameserver × Bool :=
  match g.rooms with
  | none => (g, false)
  | some rooms => if room ∈ rooms then (g, false) else ({ rooms := some (rooms ++ [room]) }, true)

/-- The other handlers, which are alike: no entry, no call. -/
def roomEventOther (g : ScriptGameserver) (room : Nat) : ScriptGameserver × Bool :=
  match g.rooms with
  | none => (g, false)
  | some rooms => (g, decide (room ∈ rooms))

/-- The script's state after a callback, and whether the interface of the room was
called. -/
def roomEvent (g : ScriptGameserver) (payload : CallbackPayload) : ScriptGameserver × Bool :=
  match payload.event with
  | .roomEventCreate => g.roomEventCreate payload.room
  | .roomEventStart | .roomEventPlayerAdded _ _ | .roomEventMessage _ _ _ | .roomEventPlayerRemoved _ _
  | .roomEventEnd | .roomEventCountdownToStart _ _ | .roomEventCountdownCancelled =>
      g.roomEventOther payload.room

end ScriptGameserver

structure NapiGameServer where
  server : Roomserver := {}
  /-- The start of the server has been announced. -/
  started : Bool := false
  /-- The rest of what the observer is told in the current event of the server. -/
  telling : List (Nat × RoomEvent) := []
  /-- How many announcements of a start wait in their queue. -/
  startQueue : Nat := 0
  queue : Nat → List CallbackPayload := fun _ => []
  gameserver : ScriptGameserver := {}
  /-- Every payload made, those that a callback was invoked with, and those of them
  that no interface of a room was told of. -/
  emitted : List CallbackPayload := []
  invoked : List CallbackPayload := []
  ignored : List CallbackPayload := []

namespace NapiGameServer

/-- What the observer is told by the calls in a log. -/
def told (log : List (Nat × RoomCall)) : List (Nat × RoomEvent) :=
  log.filterMap fun entry => entry.2.event?.map fun event => (entry.1, event)

/-- `napi_call_threadsafe_function` on the queue of the event's type. -/
def callThreadsafeFunction (s : NapiGameServer) (room : Nat) (event : RoomEvent) : NapiGameServer :=
  let payload : CallbackPayload := { seq := s.emitted.length, room, event := event.copied }
  { s with
    queue := fun type => if type = payload.event.type then s.queue type ++ [payload]
      else s.queue type
    emitted := s.emitted ++ [payload] }

/-- `return_cb`, for the next payload of a queue. -/
def returnCb (s : NapiGameServer) (type : Nat) : NapiGameServer :=
  match s.queue type with
  | [] => s
  | payload :: rest =>
      let (gameserver, heeded) := s.gameserver.roomEvent payload
      { s with
        queue := fun other => if other = type then rest else s.queue other
        gameserver
        invoked := s.invoked ++ [payload]
        ignored := if heeded then s.ignored else s.ignored ++ [payload] }

inductive Event where
  | onServerStart
  | server (event : Gearsdk.Event)
  | callThreadsafeFunction
  | startCb
  | returnCb (type : Nat)

/-- The server's thread announces its start and then serves one event after the
other, telling the observer on its way; the script thread may run at any time. -/
def enabled (s : NapiGameServer) : Event → Bool
  | .onServerStart => !s.started
  | .server event => s.started && s.telling.isEmpty && s.server.enabled event
  | .callThreadsafeFunction => !s.telling.isEmpty
  | .startCb => decide (0 < s.startQueue)
  | .returnCb type => !(s.queue type).isEmpty

def next (site : Site) (s : NapiGameServer) : Event → Except Fault NapiGameServer
  | .onServerStart => .ok { s with started := true, startQueue := s.startQueue + 1 }
  | .server event =>
      match s.server.next site event with
      | .error fault => .error fault
      | .ok server => .ok { s with server, telling := told (server.log.drop s.server.log.length) }
  | .callThreadsafeFunction =>
      match s.telling with
      | [] => .ok s
      | (room, event) :: telling =>
        .ok (({ s with telling } : NapiGameServer).callThreadsafeFunction room event)
  | .startCb =>
    .ok { s with startQueue := s.startQueue - 1, gameserver := s.gameserver.onServerStart }
  | .returnCb type => .ok (s.returnCb type)

def machine (site : Site) : Transition.Machine NapiGameServer Event Fault where
  init := {}
  enabled s event := s.enabled event = true
  next := next site

instance (site : Site) (s : NapiGameServer) (event : Event) :
    Decidable ((machine site).enabled s event) :=
  inferInstanceAs (Decidable (_ = true))

end NapiGameServer
end Gearsdk
