import Gearsdk.Qh3router

/-! The datagrams of a server behind the router: the client's address is taken off
what comes in, and put behind what goes out. -/
namespace Gearsdk
open Qh3router (Fault inBounds originalClientAddrSz)

structure Routerinfo where
  serialisedBuffer : Qstring
  portReturn : UInt16

/-- Addresses start out without a text. Their port is set with it. -/
def Qaddress.ofSockaddr (addr : Sockaddr) : Qaddress := (Qaddress.set ⟨0, []⟩ addr).2

def Routerinfo.create (router : Sockaddr) (portReturn : UInt16) : Except Fault Routerinfo := do
  let (_, serialisedBuffer) ← inBounds ((Qaddress.ofSockaddr router).serialise [])
  .ok ⟨serialisedBuffer, portReturn⟩

/-- What a round of the server's loop knows about a datagram. -/
structure Received where
  payload : List UInt8
  peerAddr : Sockaddr
  peerOriginalClientAddr : Sockaddr
  originalClientSerialisedBuffer : Qstring
  deriving DecidableEq

namespace Qh3server

def sizeofBuf : Nat := 65535

def sizeofOut : Nat := 1350

/-- The limit that the server sets for the packets of a connection. -/
def maxDatagramSize : Nat := sizeofOut - originalClientAddrSz

def viaRouter (info : Option Routerinfo) : Bool :=
  info.any fun info => originalClientAddrSz ≤ info.serialisedBuffer.length

/-- The start of a round of `recv_cb`. -/
def receive (info : Option Routerinfo) (buf datagram : List UInt8) (peerAddr : Sockaddr) :
    Except Fault (List UInt8 × Received) := do
  let read := min datagram.length buf.length
  let buf ← inBounds (Buffer.write buf 0 (datagram.take read))
  match info with
  | none => .ok (buf, ⟨Buffer.read buf 0 read, peerAddr, peerAddr, []⟩)
  | some info =>
      if read < peerAddr.length then .error .outOfBounds
      else
        let read := read - peerAddr.length
        let client := Buffer.read buf read peerAddr.length
        let (_, serialised) ← inBounds ((Qaddress.ofSockaddr client).serialise [])
        let peerAddr ← inBounds (updatePort peerAddr info.portReturn)
        .ok (buf, ⟨Buffer.read buf 0 read, peerAddr, client, serialised⟩)

/-- A packet is written to `out` and goes out with the six bytes of the client's
address behind it. -/
def sendPacket (info : Option Routerinfo) (out packet : List UInt8) (serialised : Qstring) :
    Except Fault (List UInt8 × List UInt8) := do
  let out ← inBounds (Buffer.write out 0 packet)
  if viaRouter info then
    if serialised.length < originalClientAddrSz then .error .outOfBounds
    else
      let out ← inBounds (Buffer.write out packet.length (serialised.take originalClientAddrSz))
      .ok (out, Buffer.read out 0 (packet.length + originalClientAddrSz))
  else .ok (out, Buffer.read out 0 packet.length)

end Qh3server

/-- The port and the address of a client, as the server puts them behind a packet. -/
def SockaddrIn.suffix (client : SockaddrIn) : Qstring :=
  htons client.sinPort ++ client.sinAddr.bytes

theorem SockaddrIn.length_suffix (client : SockaddrIn) :
    client.suffix.length = originalClientAddrSz := rfl

theorem Qaddress.serialise_ofSockaddr (client : SockaddrIn) (buf : Qstring) :
    (Qaddress.ofSockaddr client.bytes).serialise buf = some (0, client.suffix) := by
  rw [Qaddress.ofSockaddr, Qaddress.set_bytes]
  exact Qaddress.serialise_spec _ _ _

/-- An address without a text keeps only its port, and the others are written as
their six bytes. -/
theorem Qaddress.serialise_ofSockaddr_cases (addr : Sockaddr) (buf : Qstring) :
    (getnameinfo addr = none ∧ (Qaddress.ofSockaddr addr).serialise buf = some (0, [0, 0])) ∨
      ∃ client : SockaddrIn, getnameinfo addr = getnameinfo client.bytes ∧
        (Qaddress.ofSockaddr addr).serialise buf = some (0, client.suffix) := by
  rcases getnameinfo_cases addr with unnamed | ⟨client, named⟩
  · refine .inl ⟨unnamed, ?_⟩
    rw [Qaddress.ofSockaddr, Qaddress.set, unnamed]
    rfl
  · refine .inr ⟨client, named, ?_⟩
    have same : Qaddress.ofSockaddr addr = Qaddress.ofSockaddr client.bytes := by
      rw [Qaddress.ofSockaddr, Qaddress.set, named]
      rfl
    rw [same, Qaddress.serialise_ofSockaddr]

theorem Routerinfo.create_spec (router : SockaddrIn) (portReturn : UInt16) :
    Routerinfo.create router.bytes portReturn = .ok ⟨router.suffix, portReturn⟩ := by
  rw [Routerinfo.create, Qaddress.serialise_ofSockaddr]
  rfl

theorem updatePort_bytes (addr : SockaddrIn) (port : UInt16) :
    updatePort addr.bytes port = some { addr with sinPort := port }.bytes := rfl

namespace Qh3server
variable {info : Routerinfo} {buf out : List UInt8}

/-- The server takes the address that the router has put behind a datagram off
again, and gets the address and the datagram. -/
theorem receive_relayed (fits : payload.length + sizeofSockaddr ≤ buf.length)
    (client bridge : SockaddrIn) :
    ∃ buf', receive (some info) buf (payload ++ client.bytes) bridge.bytes =
        .ok (buf', ⟨payload, { bridge with sinPort := info.portReturn }.bytes, client.bytes,
          client.suffix⟩) ∧
      buf'.length = buf.length := by
  have length : (payload ++ client.bytes).length = payload.length + sizeofSockaddr :=
    List.length_append
  have whole : min (payload ++ client.bytes).length buf.length = payload.length +
    sizeofSockaddr := by omega
  obtain ⟨buf', wrote⟩ : ∃ buf', Buffer.write buf 0 (payload ++ client.bytes) = some buf' :=
    ⟨_, Buffer.write_of_fits (by omega)⟩
  have content := Buffer.read_write wrote
  rw [length, Buffer.read_append, Nat.zero_add] at content
  have sameLength : (Buffer.read buf' 0 payload.length).length = payload.length := by
    have total := Buffer.length_write wrote
    simp only [Buffer.read, List.length_take, List.length_drop]
    omega
  obtain ⟨front, back⟩ := List.append_inj content sameLength
  refine ⟨buf', ?_, Buffer.length_write wrote⟩
  have enough : ¬ payload.length + sizeofSockaddr < sizeofSockaddr := by omega
  simp only [receive, whole, List.take_of_length_le (Nat.le_of_eq length), wrote, inBounds,
    Option.elim_some, if_neg enough, SockaddrIn.length_bytes, Nat.add_sub_cancel, front, back,
    Qaddress.serialise_ofSockaddr, updatePort_bytes, Except.bind, bind]

/-- A packet goes out with the address of its client behind it. -/
theorem sendPacket_relayed (via : viaRouter (some info) = true)
    (fits : packet.length + originalClientAddrSz ≤ out.length) (client : SockaddrIn) :
    ∃ out', sendPacket (some info) out packet client.suffix = .ok (out', packet ++ client.suffix) ∧
      out'.length = out.length := by
  obtain ⟨first, wrote⟩ : ∃ first, Buffer.write out 0 packet = some first :=
    ⟨_, Buffer.write_of_fits (by omega)⟩
  have sameLength := Buffer.length_write wrote
  obtain ⟨second, appended⟩ : ∃ second, Buffer.write first packet.length client.suffix =
    some second :=
    ⟨_, Buffer.write_of_fits (by rw [SockaddrIn.length_suffix]; omega)⟩
  have front := Buffer.read_write_before appended (Nat.le_of_eq (Nat.zero_add packet.length))
  rw [Buffer.read_write wrote] at front
  have back := Buffer.read_write appended
  refine ⟨second, ?_, (Buffer.length_write appended).trans sameLength⟩
  have enough : ¬ client.suffix.length < originalClientAddrSz := Nat.lt_irrefl _
  have all : client.suffix.take originalClientAddrSz = client.suffix := rfl
  rw [SockaddrIn.length_suffix] at back
  simp only [sendPacket, wrote, via, if_true, if_neg enough, all, appended, inBounds,
    Option.elim_some, bind, Except.bind, Buffer.read_append, Nat.zero_add, front, back]

end Qh3server
end Gearsdk
