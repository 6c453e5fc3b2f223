import Gearsdk.AddressToken
import Gearsdk.Roomserver
import Gearsdk.Uthash

/-! The network layer below the room server. Datagrams open connections and carry
messages to them; the loop that received them, the timers of the connections and
the heartbeat check destroy them. The connections are in a hash table under the
ids that the server gave them. What the QUIC library makes of a datagram comes
with the datagram. -/
namespace Gearsdk
open Std

namespace Qnetworkserver

def localConnIdLen : Nat := 16

/-- What `quiche_header_info` writes. The id array is there in full, its length is
what the datagram says. -/
structure Header where
  versionSupported : Bool
  dcid : List UInt8
  dcidLen : Nat
  token : Qstring
  dcid_size : dcid.length = AddressToken.quicheMaxConnIdLen
  dcidLen_le : dcidLen ≤ AddressToken.quicheMaxConnIdLen

def Header.connId (header : Header) : List UInt8 := header.dcid.take header.dcidLen

/-- What the constructor of `qconn_io` copies. -/
def Header.cid (header : Header) : List UInt8 := header.dcid.take localConnIdLen

structure Datagram where
  peerAddr : Sockaddr
  peerAddr_size : peerAddr.length ≤ AddressToken.sizeofSockaddrStorage
  /-- `none` when the header does not parse. -/
  header : Option Header
  /-- Whether an answer without a connection can be made and sent. -/
  sends : Bool := true
  /-- What `gen_cid` reads. -/
  newCid : Option (List UInt8) := none
  /-- The address of the new object, when `quiche_accept` makes a connection. -/
  accepted : Option Nat := none
  /-- Whether `quiche_conn_recv` takes the datagram. -/
  processed : Bool := true
  /-- Whether the connection is established after it. -/
  established : Bool := true
  /-- What the readable streams give, up to the first error. -/
  reads : List Qstring := []

inductive Packet where
  | versionNegotiation (peerAddr : Sockaddr)
  | retry (peerAddr : Sockaddr) (newCid : List UInt8) (token : Qstring)
  deriving DecidableEq

/-- The part of a `qconn_io` that the network layer looks at. Its flags and its hash
are with the room server. -/
structure Qconnection where
  cid : List UInt8
  peerAddr : Sockaddr
  /-- In milliseconds. -/
  lastHeartbeatTime : Int
  deriving DecidableEq

inductive Fault where
  | room (fault : Gearsdk.Fault)
  | outOfBounds
  | endless
  deriving DecidableEq

/-- What a server is started with, and the parser of its messages. -/
structure Host where
  site : Site
  parse : Qstring → Option Json

end Qnetworkserver

structure Qnetworkserver where
  h : Uthash.Hash Nat := {}
  conns : TreeMap Nat Qnetworkserver.Qconnection := ∅
  room : Roomserver := {}
  maxConnsReached : Nat := 0
  maxRoomsReached : Nat := 0
  maxWroomsReached : Nat := 0
  sent : List Qnetworkserver.Packet := []
  /-- What the room server has been called with so far. -/
  delivered : List Event := []

namespace Qnetworkserver

/-- The hash that a room knows a connection by. -/
def cidHashVal (cid : List UInt8) : Nat := (Uthash.jen cid).toNat

def heartbeat : Qstring := Qstring.literal "hb"

variable (host : Host)

/-- A call of the room server. -/
def deliver (s : Qnetworkserver) (e : Event) : Except Fault Qnetworkserver :=
  match Roomserver.next host.site s.room e with
  | .error fault => .error (.room fault)
  | .ok room => .ok { s with room, delivered := s.delivered ++ [e] }

/-- `last_heartbeat_time = ev_now(loop)`. -/
def heard (s : Qnetworkserver) (ptr : Nat) : Qnetworkserver :=
  match s.conns[ptr]? with
  | none => s
  | some qconnection =>
      { s with conns := s.conns.insert ptr { qconnection with lastHeartbeatTime := s.room.evNow } }

/-- The loop over the readable streams. -/
def readStreams (ptr : Nat) : Qnetworkserver → List Qstring → Except Fault Qnetworkserver
  | s, [] => .ok s
  | s, buf :: rest =>
      if buf = heartbeat then readStreams ptr (s.heard ptr) rest
      else
        match s.deliver host (.message ptr buf (host.parse buf)) with
        | .error fault => .error fault
        | .ok s => readStreams ptr s rest

def isEstablished (s : Qnetworkserver) (ptr : Nat) : Bool :=
  (s.room.conns[ptr]?).any (·.connectionEstablished)

/-- The second half of the receiving loop. -/
def receive (s : Qnetworkserver) (ptr : Nat) (datagram : Datagram) : Except Fault Qnetworkserver :=
  if datagram.processed && datagram.established then
    if s.isEstablished ptr then readStreams host ptr s datagram.reads
    else
      match s.deliver host (.connected ptr) with
      | .error fault => .error fault
      | .ok s => readStreams host ptr s datagram.reads
  else .ok s

def createConn (s : Qnetworkserver) (ptr : Nat) (header : Header) (peerAddr : Sockaddr) :
    Except Fault Qnetworkserver :=
  match s.h.add header.cid ptr with
  | .error () => .error .endless
  | .ok h =>
      let qconnection := { cid := header.cid, peerAddr, lastHeartbeatTime := s.room.evNow }
      ({ s with h, conns := s.conns.insert ptr qconnection } : Qnetworkserver).deliver host
        (.connect ptr (cidHashVal header.cid))

def negotiateVersion (s : Qnetworkserver) (datagram : Datagram) : Qnetworkserver :=
  if datagram.sends then { s with sent := s.sent ++ [.versionNegotiation datagram.peerAddr] } else s

def sendRetry (s : Qnetworkserver) (datagram : Datagram) :
    Option (Qstring × Nat) → Except Fault Qnetworkserver
  | none => .error .outOfBounds
  | some (token, tokenLen) =>
      match datagram.newCid with
      | none => .ok s
      | some newCid =>
          if datagram.sends then
            .ok { s with sent := s.sent ++ [.retry datagram.peerAddr newCid (token.take tokenLen)] }
          else .ok s

def statelessRetry (s : Qnetworkserver) (datagram : Datagram) (header : Header) :
    Except Fault Qnetworkserver :=
  s.sendRetry datagram (mintToken header.connId datagram.peerAddr (List.replicate maxTokenLen 0))

/-- One round of the receiving loop in `recv_cb_internal`. -/
def onDatagram (s : Qnetworkserver) (datagram : Datagram) : Except Fault Qnetworkserver :=
  match datagram.header with
  | none => .ok s
  | some header =>
      match s.h.find header.connId with
      | some ptr => s.receive host ptr datagram
      | none =>
          if !header.versionSupported then .ok (s.negotiateVersion datagram)
          else if header.token.length = 0 then s.statelessRetry datagram header
          else
            match validateToken header.token datagram.peerAddr
              (List.replicate AddressToken.quicheMaxConnIdLen 0) with
            | none => .error .outOfBounds
            | some (false, _, _) => .ok s
            | some (true, _, _) =>
                match datagram.accepted with
                | none => .ok s
                | some ptr =>
                    match s.createConn host ptr header datagram.peerAddr with
                    | .error fault => .error fault
                    | .ok s => s.receive host ptr datagram

def destroyConnection (s : Qnetworkserver) (ptr : Nat) : Except Fault Qnetworkserver :=
  match s.deliver host (.destroyConnection ptr) with
  | .error fault => .error fault
  | .ok s => .ok { s with h := s.h.delete ptr, conns := s.conns.erase ptr }

/-- `HASH_ITER` over the connections. -/
def hashIter (body : Qnetworkserver → Nat → Except Fault Qnetworkserver) (s : Qnetworkserver) :
    Except Fault Qnetworkserver :=
  DoublyLinked.forEach .endless (fun s ptr => s.h.app.next ptr) body s.h.cnt s s.h.head

/-- The loop at the end of `recv_cb_internal`, with the connections that are closed. -/
def destroyClosed (s : Qnetworkserver) (closed : List Nat) : Except Fault Qnetworkserver :=
  hashIter (fun s ptr => if closed.contains ptr then s.destroyConnection host ptr else .ok s) s

/-- Ten seconds. -/
def heartbeatLimit : Int := 10 * 1000

/-- Whether the heartbeat check destroys the connection. -/
def purges (s : Qnetworkserver) (closed : List Nat) (ptr : Nat) : Bool :=
  !closed.contains ptr && (s.conns[ptr]?).any fun qconnection =>
    s.room.evNow - qconnection.lastHeartbeatTime > heartbeatLimit

def onHeartbeatCheck (s : Qnetworkserver) : Qnetworkserver :=
  { s with
    maxConnsReached := max s.h.cnt s.maxConnsReached
    maxRoomsReached := max s.room.rooms.length s.maxRoomsReached
    maxWroomsReached := max s.room.waitingRooms.length s.maxWroomsReached }

def heartbeatCheck (s : Qnetworkserver) (closed : List Nat) : Except Fault Qnetworkserver :=
  match hashIter (fun s ptr =>
    if s.purges closed ptr then s.destroyConnection host ptr else .ok s) s with
  | .error fault => .error fault
  | .ok s => .ok s.onHeartbeatCheck

/-- `timeout_cb`. -/
def onTimeout (s : Qnetworkserver) (ptr : Nat) (closed : Bool) : Except Fault Qnetworkserver :=
  if closed then s.destroyConnection host ptr else .ok s

/-- What the event loop reports. The datagrams that one call of `recv_cb` reads are
followed by one `received`, unless the socket fails. The other events are those of
the room server that do not come from the network. -/
inductive NetEvent where
  | datagram (datagram : Datagram)
  | received (closed : List Nat)
  | timeout (ptr : Nat) (closed : Bool)
  | heartbeatCheck (closed : List Nat)
  | countDownTimer (room timer : Nat)
  | checkZombieRooms
  | clock (now : Int)
  | keyExpires (key : Qstring)
  | keyExpired (key : Qstring)

/-- The event of the room server that is passed on as it is. -/
def NetEvent.inner : NetEvent → Option Event
  | .countDownTimer room timer => some (.countDownTimer room timer)
  | .checkZombieRooms => some .checkZombieRooms
  | .clock now => some (.clock now)
  | .keyExpires key => some (.keyExpires key)
  | .keyExpired key => some (.keyExpired key)
  | .datagram _ | .received _ | .timeout _ _ | .heartbeatCheck _ => none

/-- An allocated object has an address of its own; only the timer of a live
connection fires. -/
def enabled (s : Qnetworkserver) : NetEvent → Bool
  | .datagram datagram => datagram.accepted.all fun ptr => ptr ≠ Roomserver.nullptr &&
    !s.conns.contains ptr
  | .received _ | .heartbeatCheck _ => true
  | .timeout ptr _ => s.conns.contains ptr
  | e => e.inner.all s.room.enabled

def next (s : Qnetworkserver) : NetEvent → Except Fault Qnetworkserver
  | .datagram datagram => s.onDatagram host datagram
  | .received closed => s.destroyClosed host closed
  | .timeout ptr closed => s.onTimeout host ptr closed
  | .heartbeatCheck closed => s.heartbeatCheck host closed
  | e =>
      match e.inner with
      | none => .ok s
      | some e => s.deliver host e

def machine : Transition.Machine Qnetworkserver NetEvent Fault where
  init := {}
  enabled s e := s.enabled e = true
  next := next host

instance (s : Qnetworkserver) (e : NetEvent) : Decidable ((machine host).enabled s e) :=
  inferInstanceAs (Decidable (_ = true))

end Qnetworkserver
end Gearsdk
