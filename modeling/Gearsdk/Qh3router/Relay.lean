import Gearsdk.Qh3server.Datagrams
import Gearsdk.Transition

/-! Clients, the router and the servers behind it. The network may lose, repeat and
reorder datagrams. Beside every datagram stands where it comes from; nothing in
the code reads that. -/
namespace Gearsdk
open Qh3router Qh3server

namespace Qh3router
variable {buf : List UInt8} {routes : List Nat}

theorem routeOf_mem (active : routes ≠ []) (peerAddr : Sockaddr) :
    ∃ route ∈ routes, routeOf routes peerAddr = some route := by
  have inside : Crc32.checksum peerAddr % routes.length < routes.length :=
    Nat.mod_lt _ (List.length_pos_iff.mpr active)
  exact ⟨_, List.getElem_mem inside, List.getElem?_eq_getElem inside⟩

/-- Every datagram goes to an active route, with the address of its client behind it. -/
theorem recvCb_relays (fits : payload.length + sizeofSockaddr ≤ buf.length) (client : SockaddrIn) :
    ∃ buf', recvCb routes buf payload client.bytes =
        .ok (buf', (routeOf routes client.bytes).map fun route => (route, payload ++ client.bytes)) ∧
      buf'.length = buf.length := by
  have whole : min payload.length buf.length = payload.length := by omega
  obtain ⟨first, wrote⟩ : ∃ first, Buffer.write buf 0 payload = some first :=
    ⟨_, Buffer.write_of_fits (by omega)⟩
  have sameLength := Buffer.length_write wrote
  by_cases empty : routes = []
  · refine ⟨first, ?_, sameLength⟩
    simp only [recvCb, whole, List.take_length, wrote, inBounds, Option.elim_some, empty, if_true,
      routeOf, List.getElem?_nil, Option.map_none, bind, Except.bind]
  · obtain ⟨second, appended⟩ : ∃ second, Buffer.write first payload.length client.bytes =
      some second :=
      ⟨_, Buffer.write_of_fits (by rw [client.length_bytes]; omega)⟩
    have front := Buffer.read_write_before appended (Nat.le_of_eq (Nat.zero_add payload.length))
    rw [Buffer.read_write wrote] at front
    have back := Buffer.read_write appended
    refine ⟨second, ?_, (Buffer.length_write appended).trans sameLength⟩
    simp only [recvCb, whole, List.take_length, wrote, inBounds, Option.elim_some, if_neg empty,
      appended, back, front, Buffer.read_append, Nat.zero_add, bind, Except.bind]

theorem updateAddress_bytes (client server : SockaddrIn) :
    Buffer.write { server with sinPort := client.sinPort }.bytes 4 client.sinAddr.bytes =
      some client.bytes := rfl

/-- A reply goes out without the address behind it, and to that address. -/
theorem recvReturnCb_relays (active : routes ≠ [])
    (fits : packet.length + originalClientAddrSz ≤ buf.length) (client server : SockaddrIn) :
    ∃ buf', recvReturnCb routes buf (packet ++ client.suffix) server.bytes =
      .ok (buf', some (client.bytes, packet)) ∧
      buf'.length = buf.length := by
  have length : (packet ++ client.suffix).length = packet.length + originalClientAddrSz :=
    List.length_append
  have whole : min (packet ++ client.suffix).length buf.length = packet.length +
    originalClientAddrSz := by omega
  obtain ⟨buf', wrote⟩ : ∃ buf', Buffer.write buf 0 (packet ++ client.suffix) = some buf' :=
    ⟨_, Buffer.write_of_fits (by omega)⟩
  have content := Buffer.read_write wrote
  rw [length, Buffer.read_append, Nat.zero_add] at content
  have sameLength : (Buffer.read buf' 0 packet.length).length = packet.length := by
    have total := Buffer.length_write wrote
    simp only [Buffer.read, List.length_take, List.length_drop]
    omega
  obtain ⟨front, back⟩ := List.append_inj content sameLength
  have high : buf'.getD packet.length 0 = UInt8.ofNat (client.sinPort.toNat / 256) :=
    Buffer.getD_of_read back 0 (by decide) 0
  have low : buf'.getD (packet.length + 1) 0 = UInt8.ofNat client.sinPort.toNat :=
    Buffer.getD_of_read back 1 (by decide) 0
  have address : Buffer.read buf' (packet.length + 2) 4 = client.sinAddr.bytes :=
    Buffer.read_of_read back 2 (by decide)
  have enough : ¬ packet.length + originalClientAddrSz < originalClientAddrSz := by omega
  refine ⟨buf', ?_, Buffer.length_write wrote⟩
  simp only [recvReturnCb, whole, List.take_of_length_le (Nat.le_of_eq length), wrote, inBounds,
    Option.elim_some, if_neg active, if_neg enough, Nat.add_sub_cancel, high, low, ntohs_htons,
    updatePort_bytes, address, updateAddress_bytes, front, bind, Except.bind]

theorem recvReturnCb_dropped (fits : datagram.length ≤ buf.length) (peerAddr : Sockaddr) :
    ∃ buf', recvReturnCb [] buf datagram peerAddr = .ok (buf', none) ∧
      buf'.length = buf.length := by
  have whole : min datagram.length buf.length = datagram.length := by omega
  obtain ⟨buf', wrote⟩ : ∃ buf', Buffer.write buf 0 datagram = some buf' :=
    ⟨_, Buffer.write_of_fits (by omega)⟩
  refine ⟨buf', ?_, Buffer.length_write wrote⟩
  simp only [recvReturnCb, whole, List.take_length, wrote, inBounds, Option.elim_some, if_true,
    bind, Except.bind]

end Qh3router

namespace Relay

/-- On the way to the server of a route. -/
structure Relayed where
  route : Nat
  bytes : List UInt8
  client : SockaddrIn
  payload : List UInt8
  deriving DecidableEq

/-- On the way from a server. -/
structure Reply where
  server : SockaddrIn
  addr : Sockaddr
  bytes : List UInt8
  client : SockaddrIn
  packet : List UInt8
  deriving DecidableEq

structure Conn where
  peerAddr : Sockaddr
  originalClientSerialisedBuffer : Qstring
  client : SockaddrIn

structure Server where
  buf : List UInt8
  out : List UInt8
  conns : Nat → Option Conn

/-- What a server takes from a datagram of a client. -/
structure Handed where
  received : Received
  client : SockaddrIn
  payload : List UInt8
  deriving DecidableEq

/-- What the router sends out for a packet to a client. -/
structure Delivery where
  address : Sockaddr
  bytes : List UInt8
  client : SockaddrIn
  packet : List UInt8
  deriving DecidableEq

structure State where
  routes : List Nat
  buf : List UInt8
  bufReturn : List UInt8
  servers : Nat → Server
  toServers : List Relayed := []
  toRouter : List Reply := []
  handed : List Handed := []
  delivered : List Delivery := []

structure Site where
  router : SockaddrIn
  portReturn : UInt16
  server : Nat → SockaddrIn

def Site.info (site : Site) : Except Fault Routerinfo :=
  Routerinfo.create site.router.bytes site.portReturn

def Site.returnAddress (site : Site) : SockaddrIn := { site.router with sinPort := site.portReturn }

/-- What a server does with a datagram beyond taking it apart: nothing, a reply
without a connection, a new connection, or a connection that it has. -/
inductive Outcome where
  | ignored
  | answered (packet : List UInt8)
  | accepted (cid : Nat)
  | handled (cid : Nat)

inductive Event where
  | routesChange (routes : List Nat)
  | clientSends (client : SockaddrIn) (payload : List UInt8)
  | serverReceives (relayed : Relayed) (bridgePort : UInt16) (outcome : Outcome)
  | serverFlushes (route cid : Nat) (packet : List UInt8)
  | connectionCloses (route cid : Nat)
  | routerReturns (reply : Reply)

/-- The connection library keeps its packets to the limit that it is given. -/
def Outcome.possible (server : Server) : Outcome → Prop
  | .ignored => True
  | .answered packet => packet.length ≤ maxDatagramSize
  | .accepted cid => server.conns cid = none
  | .handled cid => (server.conns cid).isSome = true

def State.update (s : State) (route : Nat) (server : Server) : State :=
  { s with servers := Function.update s.servers route server }

def Server.setConn (server : Server) (cid : Nat) (conn : Option Conn) : Server :=
  { server with conns := Function.update server.conns cid conn }

variable (site : Site)

def send (s : State) (route : Nat) (client : SockaddrIn) (addr : Sockaddr) (serialised : Qstring)
    (packet : List UInt8) : Except Fault State := do
  let server := s.servers route
  let (out, bytes) ← sendPacket (some (← site.info)) server.out packet serialised
  let s := s.update route { server with out }
  .ok { s with toRouter := s.toRouter ++ [⟨site.server route, addr, bytes, client, packet⟩] }

/-- What a server does once it has taken a datagram apart. -/
def react (s : State) (relayed : Relayed) (received : Received) : Outcome → Except Fault State
  | .ignored | .handled _ => .ok s
  | .answered packet =>
      send site s relayed.route relayed.client received.peerAddr
        received.originalClientSerialisedBuffer packet
  | .accepted cid =>
      let conn : Conn :=
        ⟨received.peerAddr, received.originalClientSerialisedBuffer, relayed.client⟩
      .ok (s.update relayed.route ((s.servers relayed.route).setConn cid (some conn)))

def next (s : State) : Event → Except Fault State
  | .routesChange routes => .ok { s with routes }
  | .clientSends client payload => do
      let (buf, relayed) ← recvCb s.routes s.buf payload client.bytes
      let relayed : Option Relayed :=
        relayed.map fun (route, bytes) => ⟨route, bytes, client, payload⟩
      .ok { s with buf, toServers := s.toServers ++ relayed.toList }
  | .serverReceives relayed bridgePort outcome => do
      let server := s.servers relayed.route
      let bridge : SockaddrIn := { site.router with sinPort := bridgePort }
      let (buf, received) ← receive (some (← site.info)) server.buf relayed.bytes bridge.bytes
      let handed : Handed := ⟨received, relayed.client, relayed.payload⟩
      let s := { s.update relayed.route { server with buf } with handed := s.handed ++ [handed] }
      react site s relayed received outcome
  | .serverFlushes route cid packet =>
      match (s.servers route).conns cid with
      | none => .ok s
      | some conn =>
        send site s route conn.client conn.peerAddr conn.originalClientSerialisedBuffer packet
  | .connectionCloses route cid => .ok (s.update route ((s.servers route).setConn cid none))
  | .routerReturns reply => do
      let (bufReturn, delivered) ← recvReturnCb s.routes s.bufReturn reply.bytes reply.server.bytes
      let delivered : Option Delivery :=
        delivered.map fun (address, bytes) => ⟨address, bytes, reply.client, reply.packet⟩
      .ok { s with bufReturn, delivered := s.delivered ++ delivered.toList }

/-- A datagram of a client leaves room for the address in the router's buffer. -/
def enabled (s : State) : Event → Prop
  | .routesChange _ | .connectionCloses _ _ => True
  | .clientSends _ payload => payload.length + sizeofSockaddr ≤ sizeofBuf
  | .serverReceives relayed _ outcome =>
    relayed ∈ s.toServers ∧ outcome.possible (s.servers relayed.route)
  | .serverFlushes route cid packet =>
      ((s.servers route).conns cid).isSome = true ∧ packet.length ≤ maxDatagramSize
  | .routerReturns reply => reply ∈ s.toRouter ∧ reply.addr = site.returnAddress.bytes

def init (routes : List Nat) : State where
  routes := routes
  buf := List.replicate sizeofBuf 0
  bufReturn := List.replicate sizeofBuf 0
  servers := fun _ => ⟨List.replicate sizeofBuf 0, List.replicate sizeofOut 0, fun _ => none⟩

def machine (routes : List Nat) : Transition.Machine State Event Fault where
  init := init routes
  enabled := enabled site
  next := next site

def Relayed.Right (relayed : Relayed) : Prop :=
  relayed.bytes = relayed.payload ++ relayed.client.bytes ∧
    relayed.payload.length + sizeofSockaddr ≤ sizeofBuf

def Reply.Right (reply : Reply) : Prop :=
  reply.bytes = reply.packet ++ reply.client.suffix ∧ reply.packet.length ≤ maxDatagramSize ∧
    reply.addr = site.returnAddress.bytes

def Conn.Right (conn : Conn) : Prop :=
  conn.originalClientSerialisedBuffer = conn.client.suffix ∧
    conn.peerAddr = site.returnAddress.bytes

structure Server.Right (server : Server) : Prop where
  buf : server.buf.length = sizeofBuf
  out : server.out.length = sizeofOut
  conns : ∀ cid conn, server.conns cid = some conn → conn.Right site

/-- The payload as it was sent, and the address of the client that has sent it. -/
def Handed.Right (handed : Handed) : Prop :=
  handed.received = ⟨handed.payload, site.returnAddress.bytes, handed.client.bytes,
    handed.client.suffix⟩

/-- The packet as it was written, to the client it was written for. -/
def Delivery.Right (delivery : Delivery) : Prop :=
  delivery.address = delivery.client.bytes ∧ delivery.bytes = delivery.packet

structure Unmixed (s : State) : Prop where
  buf : s.buf.length = sizeofBuf
  bufReturn : s.bufReturn.length = sizeofBuf
  servers : ∀ route, (s.servers route).Right site
  toServers : ∀ relayed ∈ s.toServers, relayed.Right
  toRouter : ∀ reply ∈ s.toRouter, reply.Right site
  handed : ∀ handed ∈ s.handed, handed.Right site
  delivered : ∀ delivery ∈ s.delivered, delivery.Right

/-- What has to come of an event. Nothing is relayed while no route is active. -/
def Completed (s : State) : Event → State → Prop
  | .clientSends client payload, t => s.routes ≠ [] →
      ∃ route ∈ s.routes, t.toServers = s.toServers ++ [⟨route, payload ++ client.bytes, client, payload⟩]
  | .serverReceives relayed _ outcome, t =>
      t.handed = s.handed ++
        [⟨⟨relayed.payload, site.returnAddress.bytes, relayed.client.bytes, relayed.client.suffix⟩,
        relayed.client, relayed.payload⟩] ∧
      (∀ cid, outcome = .accepted cid → ∃ conn, (t.servers relayed.route).conns cid = some conn ∧
        conn.client = relayed.client) ∧
      ∀ packet, outcome = .answered packet → t.toRouter = s.toRouter ++ [⟨site.server relayed.route,
        site.returnAddress.bytes, packet ++ relayed.client.suffix, relayed.client, packet⟩]
  | .serverFlushes route cid packet, t => ∃ conn, (s.servers route).conns cid = some conn ∧
      t.toRouter = s.toRouter ++
        [⟨site.server route, site.returnAddress.bytes, packet ++ conn.client.suffix,
        conn.client, packet⟩]
  | .routerReturns reply, t => s.routes ≠ [] →
      t.delivered = s.delivered ++ [⟨reply.client.bytes, reply.packet, reply.client, reply.packet⟩]
  | _, _ => True


section Steps
variable {site} {routes : List Nat}

theorem Server.Right.setConn {server : Server} (right : server.Right site) (cid : Nat)
    {conn : Option Conn} (conns : ∀ c, conn = some c → c.Right site) :
    (server.setConn cid conn).Right site where
  buf := right.buf
  out := right.out
  conns := by
    intro other c found
    by_cases same : other = cid
    · subst other
      simp only [Server.setConn, Function.update_self] at found
      exact conns c found
    · simp only [Server.setConn, Function.update_of_ne same] at found
      exact right.conns other c found

theorem Unmixed.update {s : State} (unmixed : Unmixed site s) (route : Nat) {server : Server}
    (right : server.Right site) :
    Unmixed site (s.update route server) where
  buf := unmixed.buf
  bufReturn := unmixed.bufReturn
  servers := by
    intro other
    by_cases same : other = route
    · subst other
      simp only [State.update, Function.update_self]
      exact right
    · simp only [State.update, Function.update_of_ne same]
      exact unmixed.servers other
  toServers := unmixed.toServers
  toRouter := unmixed.toRouter
  handed := unmixed.handed
  delivered := unmixed.delivered

theorem send_spec {s : State} (unmixed : Unmixed site s) (route : Nat) (client : SockaddrIn)
    (fits : packet.length ≤ maxDatagramSize) :
    ∃ t, send site s route client site.returnAddress.bytes client.suffix packet = .ok t ∧
      Unmixed site t ∧
      t.handed = s.handed ∧
      t.toRouter = s.toRouter ++
        [⟨site.server route, site.returnAddress.bytes, packet ++ client.suffix, client, packet⟩] := by
  have right := unmixed.servers route
  have room : packet.length + originalClientAddrSz ≤ (s.servers route).out.length := by
    rw [right.out]
    exact Nat.add_le_of_le_sub (by decide) fits
  have via : viaRouter (some ⟨site.router.suffix, site.portReturn⟩) = true := rfl
  obtain ⟨out, sent, length⟩ := sendPacket_relayed via room client
  let reply : Reply :=
    ⟨site.server route, site.returnAddress.bytes, packet ++ client.suffix, client, packet⟩
  refine ⟨{ s.update route { s.servers route with out } with toRouter := s.toRouter ++ [reply] },
    ?_, ?_, rfl, rfl⟩
  · simp only [send, Site.info, Routerinfo.create_spec, sent, bind, Except.bind]
    rfl
  · have updated := @Unmixed.update site s unmixed route { s.servers route with out }
      ⟨right.buf, length.trans right.out, right.conns⟩
    refine { updated with toRouter := ?_ }
    intro reply member
    rcases List.mem_append.mp member with earlier | last
    · exact unmixed.toRouter reply earlier
    · cases List.mem_singleton.mp last
      exact ⟨rfl, fits, rfl⟩

theorem clientSends_spec {s : State} (unmixed : Unmixed site s) (client : SockaddrIn)
    (fits : payload.length + sizeofSockaddr ≤ sizeofBuf) :
    ∃ t, next site s (.clientSends client payload) = .ok t ∧ Unmixed site t ∧
      Completed site s (.clientSends client payload) t := by
  obtain ⟨buf, relayed, length⟩ :=
    @recvCb_relays s.buf s.routes payload (fits.trans_eq unmixed.buf.symm) client
  let sent : Option Relayed :=
    (routeOf s.routes client.bytes).map fun route => ⟨route, payload ++ client.bytes,
      client, payload⟩
  refine ⟨{ s with buf, toServers := s.toServers ++ sent.toList }, ?_, ?_, ?_⟩
  · simp only [next, relayed, Option.map_map, Function.comp_def, sent, bind, Except.bind]
  · refine { unmixed with buf := length.trans unmixed.buf, toServers := ?_ }
    intro other member
    rcases List.mem_append.mp member with earlier | last
    · exact unmixed.toServers other earlier
    · obtain ⟨route, _, rfl⟩ := Option.map_eq_some_iff.mp (Option.mem_toList.mp last)
      exact ⟨rfl, fits⟩
  · intro active
    obtain ⟨route, listed, chosen⟩ := routeOf_mem active client.bytes
    refine ⟨route, listed, ?_⟩
    simp only [sent, chosen, Option.map_some, Option.toList_some]

theorem react_spec {s : State} (unmixed : Unmixed site s) (relayed : Relayed)
    (possible : outcome.possible (s.servers relayed.route)) :
    let received : Received :=
      ⟨relayed.payload, site.returnAddress.bytes, relayed.client.bytes, relayed.client.suffix⟩
    ∃ t, react site s relayed received outcome = .ok t ∧ Unmixed site t ∧ t.handed = s.handed ∧
      (∀ cid, outcome = .accepted cid → ∃ conn, (t.servers relayed.route).conns cid = some conn ∧
        conn.client = relayed.client) ∧
      ∀ packet, outcome = .answered packet → t.toRouter = s.toRouter ++ [⟨site.server relayed.route,
        site.returnAddress.bytes, packet ++ relayed.client.suffix, relayed.client, packet⟩] := by
  intro received
  cases outcome with
  | ignored =>
    exact ⟨s, rfl, unmixed, rfl, by simp only [reduceCtorEq, false_imp_iff, implies_true, and_self]⟩
  | handled =>
    exact ⟨s, rfl, unmixed, rfl, by simp only [reduceCtorEq, false_imp_iff, implies_true, and_self]⟩
  | answered packet =>
    obtain ⟨t, sent, right, handed, toRouter⟩ :=
      send_spec unmixed relayed.route relayed.client possible
    refine ⟨t, sent, right, handed, by simp only [reduceCtorEq, false_imp_iff, implies_true], ?_⟩
    rintro _ ⟨⟩
    exact toRouter
  | accepted cid =>
    let conn : Conn := ⟨site.returnAddress.bytes, relayed.client.suffix, relayed.client⟩
    have connRight : ∀ c, some conn = some c → c.Right site := by
      rintro _ ⟨⟩
      exact ⟨rfl, rfl⟩
    have right := (unmixed.servers relayed.route).setConn cid connRight
    refine ⟨_, rfl, unmixed.update relayed.route right, rfl, ?_,
      by simp only [reduceCtorEq, false_imp_iff, implies_true]⟩
    rintro _ ⟨⟩
    refine ⟨conn, ?_, rfl⟩
    simp only [State.update, Server.setConn, Function.update_self]
    rfl

theorem serverReceives_spec {s : State} (unmixed : Unmixed site s) (sent : relayed ∈ s.toServers)
    (possible : outcome.possible (s.servers relayed.route)) (bridgePort : UInt16) :
    ∃ t, next site s (.serverReceives relayed bridgePort outcome) = .ok t ∧ Unmixed site t ∧
      Completed site s (.serverReceives relayed bridgePort outcome) t := by
  obtain ⟨bytes, fits⟩ := unmixed.toServers relayed sent
  have right := unmixed.servers relayed.route
  let bridge : SockaddrIn := { site.router with sinPort := bridgePort }
  obtain ⟨buf, stripped, length⟩ := @receive_relayed ⟨site.router.suffix, site.portReturn⟩
    (s.servers relayed.route).buf relayed.payload (fits.trans_eq right.buf.symm) relayed.client bridge
  let handed : Handed :=
    ⟨⟨relayed.payload, site.returnAddress.bytes, relayed.client.bytes, relayed.client.suffix⟩,
      relayed.client, relayed.payload⟩
  let server : Server := { s.servers relayed.route with buf }
  let taken : State := { s.update relayed.route server with handed := s.handed ++ [handed] }
  have updated :=
    unmixed.update relayed.route (⟨length.trans right.buf, right.out, right.conns⟩ : server.Right site)
  have takenRight : Unmixed site taken := by
    refine { updated with handed := ?_ }
    intro other member
    rcases List.mem_append.mp member with earlier | last
    · exact unmixed.handed other earlier
    · cases List.mem_singleton.mp last
      rfl
  have stillPossible : outcome.possible (taken.servers relayed.route) := by
    have same : taken.servers relayed.route = server := Function.update_self ..
    rw [same]
    exact possible
  obtain ⟨t, reacted, unmixed', sameHanded, completed⟩ :=
    react_spec takenRight relayed stillPossible
  refine ⟨t, ?_, unmixed', sameHanded, completed⟩
  simp only [next, Site.info, Routerinfo.create_spec, bytes, bind, Except.bind]
  rw [stripped]
  exact reacted

theorem routerReturns_spec {s : State} (unmixed : Unmixed site s) (sent : reply ∈ s.toRouter) :
    ∃ t, next site s (.routerReturns reply) = .ok t ∧ Unmixed site t ∧
      Completed site s (.routerReturns reply) t := by
  obtain ⟨bytes, short, _⟩ := unmixed.toRouter reply sent
  have fits : reply.packet.length + originalClientAddrSz ≤ s.bufReturn.length := by
    rw [unmixed.bufReturn]
    exact (Nat.add_le_of_le_sub (by decide) short).trans (by decide)
  by_cases active : s.routes = []
  · have whole : reply.bytes.length ≤ s.bufReturn.length := by
      rw [bytes, List.length_append]
      exact fits
    obtain ⟨bufReturn, dropped, length⟩ := recvReturnCb_dropped whole reply.server.bytes
    refine ⟨{ s with bufReturn, delivered := s.delivered ++ [] }, ?_, ?_, ?_⟩
    · simp only [next, active, dropped, Option.map_none, Option.toList_none, bind, Except.bind]
    · refine { unmixed with bufReturn := length.trans unmixed.bufReturn, delivered := ?_ }
      simpa only [List.append_nil] using unmixed.delivered
    · exact fun some => absurd active some
  · obtain ⟨bufReturn, relayed, length⟩ := recvReturnCb_relays active fits reply.client reply.server
    let delivery : Delivery := ⟨reply.client.bytes, reply.packet, reply.client, reply.packet⟩
    refine ⟨{ s with bufReturn, delivered := s.delivered ++ [delivery] }, ?_, ?_, ?_⟩
    · simp only [next, bytes, relayed, Option.map_some, Option.toList_some, bind, Except.bind]
      rfl
    · refine { unmixed with bufReturn := length.trans unmixed.bufReturn, delivered := ?_ }
      intro other member
      rcases List.mem_append.mp member with earlier | last
      · exact unmixed.delivered other earlier
      · cases List.mem_singleton.mp last
        exact ⟨rfl, rfl⟩
    · exact fun _ => rfl

theorem step_spec {s : State} (unmixed : Unmixed site s) (possible : enabled site s event) :
    ∃ t, next site s event = .ok t ∧ Unmixed site t ∧ Completed site s event t := by
  cases event with
  | routesChange routes => exact ⟨_, rfl, { unmixed with }, trivial⟩
  | clientSends client payload => exact clientSends_spec unmixed client possible
  | serverReceives relayed bridgePort outcome =>
    exact serverReceives_spec unmixed possible.1 possible.2 bridgePort
  | serverFlushes route cid packet =>
    obtain ⟨conn, found⟩ := Option.isSome_iff_exists.mp possible.1
    obtain ⟨serialised, peerAddr⟩ := (unmixed.servers route).conns cid conn found
    obtain ⟨t, sent, right, _, toRouter⟩ := send_spec unmixed route conn.client possible.2
    refine ⟨t, ?_, right, conn, found, toRouter⟩
    simp only [next, found, peerAddr, serialised]
    exact sent
  | connectionCloses route cid =>
    have right := @Server.Right.setConn site _ (unmixed.servers route) cid none
      (fun _ found => by cases found)
    exact ⟨_, rfl, unmixed.update route right, trivial⟩
  | routerReturns reply => exact routerReturns_spec unmixed possible.1

theorem step_of (possible : enabled site s event) (stepped : next site s event = .ok t) :
    (machine site routes).Step s event t := ⟨possible, stepped⟩

theorem init_unmixed (routes : List Nat) : Unmixed site (init routes) where
  buf := List.length_replicate
  bufReturn := List.length_replicate
  servers _ := ⟨List.length_replicate, List.length_replicate, fun _ _ found => by cases found⟩
  toServers _ member := by cases member
  toRouter _ member := by cases member
  handed _ member := by cases member
  delivered _ member := by cases member

theorem run_unmixed (run : (machine site routes).Run es s) : Unmixed site s := by
  refine run.invariant ?_ (init_unmixed routes)
  rintro s e t unmixed ⟨possible, stepped⟩
  obtain ⟨u, stepped', right, _⟩ := step_spec unmixed possible
  cases Except.ok.inj (stepped.symm.trans stepped')
  exact right

end Steps

/-- Whatever clients and servers do in whatever order: no access leaves a buffer, a
server gets every payload unchanged with the address of the client that has sent
it, every packet reaches the client it was written for unchanged, and every
event achieves its part of the round trip. -/
theorem relay_round_trip (routes : List Nat) :
    ∀ {es s}, (machine site routes).Run es s →
      (∀ handed ∈ s.handed, handed.Right site) ∧ (∀ delivery ∈ s.delivered, delivery.Right) ∧
      ∀ event, enabled site s event → ∃ t, next site s event = .ok t ∧
        Completed site s event t := by
  intro es s run
  have unmixed := run_unmixed run
  refine ⟨unmixed.handed, unmixed.delivered, ?_⟩
  intro event possible
  obtain ⟨t, stepped, _, completed⟩ := step_spec unmixed possible
  exact ⟨t, stepped, completed⟩

/-- A client says hello and gets a reply. -/
theorem hello_answered :
    let site : Site := ⟨⟨4000, ⟨10, 0, 0, 1⟩⟩, 4005, fun _ => ⟨5100, ⟨10, 0, 0, 1⟩⟩⟩
    let client : SockaddrIn := ⟨65535, ⟨255, 0, 0, 255⟩⟩
    ∃ es s, (machine site [0]).Run es s ∧ ⟨client.bytes, [2], client, [2]⟩ ∈ s.delivered := by
  intro site client
  have run₀ : (machine site [0]).Run [] (init [0]) := .refl _
  have hello : enabled site (init [0]) (.clientSends client [1]) :=
    (by decide : [(1 : UInt8)].length + sizeofSockaddr ≤ sizeofBuf)
  obtain ⟨s₁, sends, completed⟩ := (relay_round_trip site [0] run₀).2.2 _ hello
  obtain ⟨route, _, toServers⟩ := completed (List.cons_ne_nil 0 [])
  have run₁ := run₀.step (step_of hello sends)
  have arrives : enabled site s₁ (.serverReceives ⟨route, [1] ++ client.bytes, client,
      [1]⟩ 4000 (.answered [2])) := by
    refine ⟨?_, (by decide : [(2 : UInt8)].length ≤ maxDatagramSize)⟩
    rw [toServers]
    exact List.mem_append_right _ List.mem_cons_self
  obtain ⟨s₂, receives, _, _, answered⟩ := (relay_round_trip site [0] run₁).2.2 _ arrives
  have changes : enabled site s₂ (.routesChange [0]) := trivial
  have run₂ := (run₁.step (step_of arrives receives)).step (step_of changes rfl)
  have returns : enabled site { s₂ with
    routes := [0] } (.routerReturns ⟨site.server route, site.returnAddress.bytes,
      [2] ++ client.suffix, client, [2]⟩) := by
    refine ⟨?_, rfl⟩
    change _ ∈ s₂.toRouter
    rw [answered [2] rfl]
    exact List.mem_append_right _ List.mem_cons_self
  obtain ⟨s₃, delivers, delivered⟩ := (relay_round_trip site [0] run₂).2.2 _ returns
  refine ⟨_, s₃, run₂.step (step_of returns delivers), ?_⟩
  rw [delivered (List.cons_ne_nil 0 [])]
  exact List.mem_append_right _ List.mem_cons_self

end Relay
end Gearsdk
