import Gearsdk.Qh3server.Datagrams

/-! The address behind a relayed datagram as it is taken off. Both ends subtract
the length of the address from what they have received, with signed numbers and
without a test, and use the difference as an index and as a length. -/
namespace Gearsdk
open Qh3router (Fault inBounds originalClientAddrSz)

/-- A part of the receive buffer that is read. -/
structure Access where
  index : Int
  length : Int
deriving DecidableEq

def Access.Inside (access : Access) (received : Int) : Prop :=
  0 ≤ access.index ∧ 0 ≤ access.length ∧ access.index + access.length ≤ received

instance (access : Access) (received : Int) : Decidable (access.Inside received) :=
  inferInstanceAs (Decidable (_ ∧ _))

/-- Received bytes and the code that takes their suffix off. -/
inductive Reception where
  | recvReturnCb (routes : List Nat) (datagram : List UInt8) (peerAddr : Sockaddr)
  | recvCb (info : Option Routerinfo) (datagram : List UInt8) (peerAddr : Sockaddr)
  | deserialise (address : Qaddress) (buf : List UInt8)

namespace Reception

/-- What `recvfrom` returns, or the length that is passed on. -/
def received : Reception → Nat
  | recvReturnCb _ datagram _ | recvCb _ datagram _ => min datagram.length Qh3server.sizeofBuf
  | deserialise _ buf => buf.length

def suffixLength : Reception → Nat
  | recvReturnCb .. | deserialise .. => originalClientAddrSz
  | recvCb none .. => 0
  | recvCb (some _) _ peerAddr => peerAddr.length

/-- The parts that are read: the suffix in pieces, then the payload. -/
def accesses (reception : Reception) : List Access :=
  match reception with
  | recvReturnCb routes _ _ =>
      if routes = [] then []
      else
        let read : Int := reception.received - originalClientAddrSz
        [⟨read, 2⟩, ⟨read + 2, 4⟩, ⟨0, read⟩]
  | recvCb none .. => [⟨0, reception.received⟩]
  | recvCb (some _) _ peerAddr =>
      let read : Int := reception.received - peerAddr.length
      [⟨read, peerAddr.length⟩, ⟨0, read⟩]
  | deserialise .. =>
      if reception.received < 6 then [] else [⟨0, 2⟩, ⟨2, 1⟩, ⟨3, 1⟩, ⟨4, 1⟩, ⟨5, 1⟩]

/-- Nothing is passed on and nothing but the receive buffer changes. -/
def Dropped : Reception → Prop
  | recvReturnCb routes datagram peerAddr => ∀ buf, buf.length = Qh3server.sizeofBuf →
      ∃ buf', Qh3router.recvReturnCb routes buf datagram peerAddr = .ok (buf', none)
  | recvCb info datagram peerAddr => ∀ buf, buf.length = Qh3server.sizeofBuf →
      ∀ buf' received, Qh3server.receive info buf datagram peerAddr ≠ .ok (buf', received)
  | deserialise address buf => address.deserialise buf = (-1, address)

/-- What is read has been received, and what is too short for its suffix is
dropped unread. -/
structure Decoded (reception : Reception) : Prop where
  inside : ∀ access ∈ reception.accesses, access.Inside reception.received
  short : reception.received < reception.suffixLength → reception.accesses = [] ∧ reception.Dropped

/-- Only the router without routes and `deserialise` look at the length. -/
def LongEnough : Reception → Prop
  | recvReturnCb routes datagram peerAddr =>
      routes = [] ∨ originalClientAddrSz ≤ (recvReturnCb routes datagram peerAddr).received
  | recvCb info datagram peerAddr =>
      (recvCb info datagram peerAddr).suffixLength ≤ (recvCb info datagram peerAddr).received
  | deserialise .. => True

theorem received_of_size (size : buf.length = Qh3server.sizeofBuf) (datagram : List UInt8) :
    ∃ buf', Buffer.write buf 0 (datagram.take (min datagram.length Qh3server.sizeofBuf)) =
      some buf' := by
  refine ⟨_, Buffer.write_of_fits ?_⟩
  rw [List.length_take, size]
  omega

theorem dropped_of_no_routes (datagram : List UInt8) (peerAddr : Sockaddr) :
    (recvReturnCb [] datagram peerAddr).Dropped := by
  intro buf size
  obtain ⟨buf', wrote⟩ := received_of_size size datagram
  refine ⟨buf', ?_⟩
  simp only [Qh3router.recvReturnCb, size, wrote, inBounds, Option.elim_some, if_true, bind,
    Except.bind]

theorem deserialise_short (address : Qaddress) (short : buf.length < 6) :
    address.deserialise buf = (-1, address) := by
  match buf with
  | [] | [_] | [_, _] | [_, _, _] | [_, _, _, _] | [_, _, _, _, _] => rfl
  | _ :: _ :: _ :: _ :: _ :: _ :: _ =>
    simp only [List.length_cons] at short
    omega

theorem inside_recvReturnCb (routes : List Nat) (datagram : List UInt8) (peerAddr : Sockaddr)
    (active : routes ≠ []) :
    (∀ access ∈ (recvReturnCb routes datagram peerAddr).accesses,
      access.Inside (recvReturnCb routes datagram peerAddr).received) ↔
      originalClientAddrSz ≤ (recvReturnCb routes datagram peerAddr).received := by
  simp only [accesses, if_neg active, List.forall_mem_cons, Access.Inside, originalClientAddrSz]
  constructor
  · intro inside
    omega
  · intro enough
    refine ⟨by omega, by omega, by omega, ?_⟩
    exact fun _ none => absurd none List.not_mem_nil

theorem inside_recvCb (info : Option Routerinfo) (datagram : List UInt8) (peerAddr : Sockaddr) :
    (∀ access ∈ (recvCb info datagram peerAddr).accesses,
      access.Inside (recvCb info datagram peerAddr).received) ↔
      (recvCb info datagram peerAddr).suffixLength ≤ (recvCb info datagram peerAddr).received := by
  cases info with
  | none => simp [accesses, suffixLength, Access.Inside]
  | some info =>
    simp only [accesses, List.forall_mem_cons, Access.Inside, suffixLength]
    constructor
    · intro inside
      omega
    · intro enough
      refine ⟨by omega, by omega, ?_⟩
      exact fun _ none => absurd none List.not_mem_nil

/-- A datagram is decoded inside its bytes or dropped exactly when it is long
enough for the end that takes its suffix off. -/
theorem decoded_iff (reception : Reception) : reception.Decoded ↔ reception.LongEnough := by
  cases reception with
  | recvReturnCb routes datagram peerAddr =>
    by_cases idle : routes = []
    · subst idle
      refine iff_of_true ⟨?_, ?_⟩ (.inl rfl)
      · exact fun _ none => absurd none List.not_mem_nil
      · exact fun _ => ⟨rfl, dropped_of_no_routes datagram peerAddr⟩
    · have bounds := inside_recvReturnCb routes datagram peerAddr idle
      constructor
      · intro decoded
        exact .inr (bounds.mp decoded.inside)
      · rintro (none | enough)
        · exact absurd none idle
        · exact ⟨bounds.mpr enough, fun short => absurd enough (Nat.not_le.mpr short)⟩
  | recvCb info datagram peerAddr =>
    have bounds := inside_recvCb info datagram peerAddr
    constructor
    · intro decoded
      exact bounds.mp decoded.inside
    · intro enough
      exact ⟨bounds.mpr enough, fun short => absurd enough (Nat.not_le.mpr short)⟩
  | deserialise address buf =>
    refine iff_of_true ⟨?_, ?_⟩ trivial
    · intro access member
      simp only [accesses] at member
      split at member
      · exact absurd member List.not_mem_nil
      · have enough : 6 ≤ (deserialise address buf).received := by omega
        simp only [List.mem_cons, List.not_mem_nil, or_false] at member
        rcases member with rfl | rfl | rfl | rfl | rfl
        all_goals
          dsimp only [Access.Inside]
          omega
    · intro short
      exact ⟨if_pos short, deserialise_short address short⟩

/-- Five bytes for a router with a route: the port is read before the buffer. -/
theorem five_bytes_returned :
    ¬ (recvReturnCb [0] [1, 2, 3, 4, 5] (SockaddrIn.bytes ⟨4000, ⟨10, 0, 0, 1⟩⟩)).Decoded := by
  intro decoded
  exact absurd (decoded.inside ⟨-1, 2⟩ (by decide)) (by decide)

/-! ### The receive functions -/

/-- A round of the router's loop leaves its buffer where an access does. -/
theorem recvReturnCb_fault_iff (size : buf.length = Qh3server.sizeofBuf) (routes : List Nat)
    (datagram : List UInt8) (peer : SockaddrIn) :
    Qh3router.recvReturnCb routes buf datagram peer.bytes = .error .outOfBounds ↔
      ¬ ∀ access ∈ (recvReturnCb routes datagram peer.bytes).accesses,
        access.Inside (recvReturnCb routes datagram peer.bytes).received := by
  obtain ⟨buf', wrote⟩ := received_of_size size datagram
  by_cases idle : routes = []
  · subst idle
    obtain ⟨_, dropped⟩ := dropped_of_no_routes datagram peer.bytes buf size
    refine iff_of_false ?_ fun outside => outside fun _ none => absurd none List.not_mem_nil
    rw [dropped]
    exact fun fault => by contradiction
  · rw [inside_recvReturnCb routes datagram peer.bytes idle, Nat.not_le]
    have fits : 4 +
      (Buffer.read buf' ((min datagram.length Qh3server.sizeofBuf) - originalClientAddrSz + 2) 4).length ≤
        sizeofSockaddr := by
      rw [Buffer.read, List.length_take, sizeofSockaddr]
      omega
    simp only [Qh3router.recvReturnCb, size, wrote, inBounds, Option.elim_some, if_neg idle, bind,
      Except.bind, received]
    by_cases short : min datagram.length Qh3server.sizeofBuf < originalClientAddrSz
    · exact iff_of_true (if_pos short) short
    · refine iff_of_false ?_ short
      rw [if_neg short, updatePort_bytes, Option.elim_some]
      dsimp only
      rw [Buffer.write_of_fits fits, Option.elim_some]
      exact fun fault => by contradiction

/-- The same for a round of the server's loop behind the router. -/
theorem receive_fault_iff (size : buf.length = Qh3server.sizeofBuf) (info : Option Routerinfo)
    (datagram : List UInt8) (peer : SockaddrIn) :
    Qh3server.receive info buf datagram peer.bytes = .error .outOfBounds ↔
      ¬ ∀ access ∈ (recvCb info datagram peer.bytes).accesses,
        access.Inside (recvCb info datagram peer.bytes).received := by
  obtain ⟨buf', wrote⟩ := received_of_size size datagram
  rw [inside_recvCb, Nat.not_le]
  cases info with
  | none =>
    simp only [Qh3server.receive, size, wrote, inBounds, Option.elim_some, bind, Except.bind,
      suffixLength]
    exact iff_of_false (fun fault => by contradiction) (Nat.not_lt_zero _)
  | some info =>
    simp only [Qh3server.receive, size, wrote, inBounds, Option.elim_some, bind, Except.bind,
      suffixLength, received]
    by_cases short : min datagram.length Qh3server.sizeofBuf < peer.bytes.length
    · exact iff_of_true (if_pos short) short
    · refine iff_of_false ?_ short
      let client := Buffer.read buf' (min datagram.length Qh3server.sizeofBuf -
        peer.bytes.length) peer.bytes.length
      obtain ⟨serialised, written⟩ : ∃ serialised, (Qaddress.ofSockaddr client).serialise [] =
          some (0, serialised) := by
        rcases Qaddress.serialise_ofSockaddr_cases client [] with ⟨_, written⟩ | ⟨_, _, written⟩
        · exact ⟨_, written⟩
        · exact ⟨_, written⟩
      rw [if_neg short, written, updatePort_bytes]
      exact fun fault => by contradiction

end Reception
end Gearsdk
