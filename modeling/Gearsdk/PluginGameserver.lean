import Gearsdk.Roomserver

/-! The game server of the plugin, with the messages that scripts send to its
rooms. The script thread makes a packet, enters it in a queue and wakes the loop
of the server; the loop takes the packets out one after the other. A packet names
its room by the address of the room object, and a later room may be constructed
at the address of a deleted one. -/
namespace Gearsdk
open Std

/-- Every operation holds the mutex of the queue. -/
structure AsyncEvNotifier (T : Type) where
  inited : Bool := false
  responseQueue : List T := []
  /-- The watcher has been sent to, and its callback is still to come. -/
  sent : Bool := false

namespace AsyncEvNotifier
variable {T : Type}

def init (n : AsyncEvNotifier T) : AsyncEvNotifier T :=
  if n.inited then n else { n with inited := true }

def enqueueResponse (n : AsyncEvNotifier T) (responsePacket : T) : AsyncEvNotifier T :=
  if !n.inited then n else { n with responseQueue := n.responseQueue ++ [responsePacket] }

def dequeueResponse (n : AsyncEvNotifier T) : Option T × AsyncEvNotifier T :=
  if !n.inited then (none, n)
  else
    match n.responseQueue with
    | [] => (none, n)
    | responsePacket :: responseQueue => (some responsePacket, { n with responseQueue })

def notifyMainThread (n : AsyncEvNotifier T) : AsyncEvNotifier T :=
  if !n.inited then n else { n with sent := true }

end AsyncEvNotifier

inductive ResponseType where
  | broadcastExcept | broadcast | sendTo
  deriving DecidableEq

/-- `st_stateful_gameserver_response_packet`. The room that was at `roomPtr` when
the packet was made has the number `room`, which nothing reads. -/
structure ResponsePacket where
  type : ResponseType
  roomPtr : Nat
  cidHash : Nat
  message : Qstring
  room : Nat
  deriving DecidableEq

/-- The switch of the callback, for the room that it has found. -/
def ResponsePacket.deliver (packet : ResponsePacket) (r : Room) : List RoomCall :=
  match packet.type with
  | .broadcastExcept =>
      match r.getPlayer packet.cidHash with
      | some p => r.broadcastExcept p packet.message
      | none => []
  | .broadcast => r.broadcast packet.message
  | .sendTo =>
      match r.getPlayer packet.cidHash with
      | some p => r.sendto p packet.message
      | none => []

/-- The script thread between two of its calls or inside one. -/
inductive ScriptThread where
  | idle
  | enqueueing (packet : ResponsePacket)
  | notifying

/-- What has become of a packet: the room it was made for, as that stood if it was
still there, the room that received it, and the calls that this room made. -/
structure Drained where
  packet : ResponsePacket
  target : Option Room
  receiver : Option Nat
  calls : List RoomCall

structure PluginGameserver where
  server : Roomserver := {}
  /-- The address of each room object. -/
  addressOf : Nat → Nat := fun _ => Roomserver.nullptr
  evNotifier : AsyncEvNotifier ResponsePacket := {}
  script : ScriptThread := .idle
  /-- The main thread is inside `notify_server_async_cb`. -/
  draining : Bool := false
  /-- Every packet that a call of the script has made, and what became of those
  that have been taken out. -/
  accepted : List ResponsePacket := []
  drained : List Drained := []

namespace PluginGameserver

/-- The rooms are looked up by their address; the key is also the value. -/
def tryGetRoomIfInMap (s : PluginGameserver) (roomPtr : Nat) : Option Nat :=
  s.server.rooms.find? fun room => s.addressOf room = roomPtr

/-- The part that the three functions share: a null or empty message and a room
that is not in the map are refused. The packet belongs to the room that is found. -/
def response (s : PluginGameserver) (type : ResponseType) (roomPtr cidHash : Nat)
    (msg : Option Qstring) :
    Option ResponsePacket :=
  match msg with
  | none | some [] => none
  | some message =>
      match s.tryGetRoomIfInMap roomPtr with
      | none => none
      | some room => some { type, roomPtr, cidHash, message, room }

def roomBroadcastExcept (s : PluginGameserver) (roomPtr cidHash : Nat) (msg : Option Qstring) :
    Option ResponsePacket :=
  s.response .broadcastExcept roomPtr cidHash msg

def roomBroadcast (s : PluginGameserver) (roomPtr : Nat) (msg : Option Qstring) :
    Option ResponsePacket :=
  s.response .broadcast roomPtr 0 msg

def roomSendTo (s : PluginGameserver) (roomPtr cidHash : Nat) (msg : Option Qstring) :
    Option ResponsePacket :=
  s.response .sendTo roomPtr cidHash msg

/-- The script has looked the room up and goes on to the queue if there is a packet. -/
def make (s : PluginGameserver) : Option ResponsePacket → PluginGameserver
  | none => s
  | some packet => { s with script := .enqueueing packet, accepted := s.accepted ++ [packet] }

def enqueue (s : PluginGameserver) : PluginGameserver :=
  match s.script with
  | .enqueueing packet =>
    { s with evNotifier := s.evNotifier.enqueueResponse packet, script := .notifying }
  | .idle | .notifying => s

/-- One turn of the loop in `notify_server_async_cb`. -/
def drain (s : PluginGameserver) : Except Fault PluginGameserver :=
  match s.evNotifier.dequeueResponse with
  | (none, evNotifier) => .ok { s with evNotifier, draining := false }
  | (some packet, evNotifier) =>
      let s := { s with evNotifier }
      let target := s.server.roomHeap[packet.room]?
      match s.tryGetRoomIfInMap packet.roomPtr with
      | none =>
        .ok { s with drained := s.drained ++ [{ packet, target, receiver := none, calls := [] }] }
      | some room =>
          match s.server.deref room with
          | .error fault => .error fault
          | .ok r =>
              let calls := packet.deliver r
              .ok { s with drained := s.drained ++ [{ packet, target, receiver := some room, calls }] }

/-- `address` is where the server would construct its next room. -/
inductive Event where
  | onNetworkServerInit
  | server (event : Gearsdk.Event) (address : Nat)
  | roomBroadcastExcept (roomPtr cidHash : Nat) (msg : Option Qstring)
  | roomBroadcast (roomPtr : Nat) (msg : Option Qstring)
  | roomSendTo (roomPtr cidHash : Nat) (msg : Option Qstring)
  | enqueueResponse
  | notifyMainThread
  | notifyServerAsyncCb
  | dequeueResponse

/-- The main thread runs either an event of the server or the callback. A new room
is constructed in free memory. -/
def enabled (s : PluginGameserver) : Event → Bool
  | .onNetworkServerInit => !s.draining
  | .server event address =>
      s.evNotifier.inited && !s.draining && s.server.enabled event &&
        s.server.roomHeap.keys.all fun room => s.addressOf room ≠ address
  | .roomBroadcastExcept _ _ _ | .roomBroadcast _ _ | .roomSendTo _ _ _ =>
      match s.script with
      | .idle => true
      | .enqueueing _ | .notifying => false
  | .enqueueResponse =>
      match s.script with
      | .enqueueing _ => true
      | .idle | .notifying => false
  | .notifyMainThread =>
      match s.script with
      | .notifying => true
      | .idle | .enqueueing _ => false
  | .notifyServerAsyncCb => s.evNotifier.sent && !s.draining
  | .dequeueResponse => s.draining

def next (site : Site) (s : PluginGameserver) : Event → Except Fault PluginGameserver
  | .onNetworkServerInit => .ok { s with evNotifier := s.evNotifier.init }
  | .server event address =>
      match s.server.next site event with
      | .error fault => .error fault
      | .ok server =>
          let addressOf := fun room => if room = s.server.roomIdCounter then address
            else s.addressOf room
          .ok { s with server, addressOf }
  | .roomBroadcastExcept roomPtr cidHash msg =>
    .ok (s.make (s.roomBroadcastExcept roomPtr cidHash msg))
  | .roomBroadcast roomPtr msg => .ok (s.make (s.roomBroadcast roomPtr msg))
  | .roomSendTo roomPtr cidHash msg => .ok (s.make (s.roomSendTo roomPtr cidHash msg))
  | .enqueueResponse => .ok s.enqueue
  | .notifyMainThread => .ok { s with evNotifier := s.evNotifier.notifyMainThread, script := .idle }
  | .notifyServerAsyncCb =>
      .ok { s with evNotifier := { s.evNotifier with sent := false }, draining := true }
  | .dequeueResponse => s.drain

def machine (site : Site) : Transition.Machine PluginGameserver Event Fault where
  init := {}
  enabled s event := s.enabled event = true
  next := next site

instance (site : Site) (s : PluginGameserver) (event : Event) :
    Decidable ((machine site).enabled s event) :=
  inferInstanceAs (Decidable (_ = true))

end PluginGameserver
end Gearsdk
