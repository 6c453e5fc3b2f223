import Gearsdk.Buffer
import Gearsdk.Qstring.Split
import Gearsdk.Str2int

/-! IPv4 addresses as the servers pass them on: as a `sockaddr`, as text, and as
six bytes behind a datagram. -/
namespace Gearsdk

abbrev Sockaddr := List UInt8

structure InAddr where
  a : UInt8
  b : UInt8
  c : UInt8
  d : UInt8
  deriving DecidableEq

structure SockaddrIn where
  sinPort : UInt16
  sinAddr : InAddr
  deriving DecidableEq

/-- The two bytes of `htons(port)` in memory. -/
def htons (port : UInt16) : List UInt8 := [UInt8.ofNat (port.toNat / 256), UInt8.ofNat port.toNat]

def ntohs (high low : UInt8) : UInt16 := UInt16.ofNat (high.toNat * 256 + low.toNat)

def InAddr.bytes (address : InAddr) : List UInt8 := [address.a, address.b, address.c, address.d]

/-- `AF_INET`, port and address in network order, and `sin_zero`. -/
def SockaddrIn.bytes (address : SockaddrIn) : Sockaddr :=
  [2, 0] ++ htons address.sinPort ++ address.sinAddr.bytes ++ [0, 0, 0, 0, 0, 0, 0, 0]

def sizeofSockaddr : Nat := 16

def InAddr.dottedQuad (address : InAddr) : Qstring :=
  Qstring.unsigned address.a.toNat ++ 46 :: (Qstring.unsigned address.b.toNat ++ 46 ::
    (Qstring.unsigned address.c.toNat ++ 46 :: Qstring.unsigned address.d.toNat))

/-- `getnameinfo` with `NI_NUMERICHOST | NI_NUMERICSERV` for IPv4. -/
def getnameinfo : Sockaddr → Option (Qstring × Qstring)
  | [2, 0, high, low, a, b, c, d, _, _, _, _, _, _, _, _] =>
      some (InAddr.dottedQuad ⟨a, b, c, d⟩, Qstring.unsigned (ntohs high low).toNat)
  | _ => none

/-- The port is in the same place for `AF_INET` and `AF_INET6`. -/
def updatePort (sa : Sockaddr) (newPort : UInt16) : Option Sockaddr :=
  if sa.take 2 = [2, 0] ∨ sa.take 2 = [10, 0] then Buffer.write sa 2 (htons newPort) else some sa

theorem ntohs_htons (port : UInt16) :
    ntohs (UInt8.ofNat (port.toNat / 256)) (UInt8.ofNat port.toNat) = port := by
  apply UInt16.toNat_inj.mp
  have bound := port.toNat_lt
  simp only [ntohs, UInt8.toNat_ofNat', UInt16.toNat_ofNat']
  omega

theorem SockaddrIn.getnameinfo_bytes (addr : SockaddrIn) :
    getnameinfo addr.bytes = some (addr.sinAddr.dottedQuad, Qstring.unsigned addr.sinPort.toNat) := by
  change some (addr.sinAddr.dottedQuad, Qstring.unsigned (ntohs _ _).toNat) = _
  rw [ntohs_htons]

/-- Only IPv4 addresses have a text here, and it is that of a port and four bytes. -/
theorem getnameinfo_cases (addr : Sockaddr) :
    getnameinfo addr = none ∨ ∃ client : SockaddrIn, getnameinfo addr =
      getnameinfo client.bytes := by
  cases named : getnameinfo addr with
  | none => exact .inl rfl
  | some text =>
    simp only [getnameinfo] at named
    split at named
    · rename_i high low a b c d _ _ _ _ _ _ _ _
      cases Option.some.inj named
      let client : SockaddrIn := ⟨ntohs high low, ⟨a, b, c, d⟩⟩
      exact .inr ⟨client, client.getnameinfo_bytes.symm⟩
    · contradiction

theorem SockaddrIn.length_bytes (addr : SockaddrIn) : addr.bytes.length = sizeofSockaddr := rfl

structure Qaddress where
  port : UInt16
  ip : Qstring
  deriving DecidableEq

namespace Qaddress
open Qstring Str2int

def setText (address : Qaddress) (ip port : Qstring) : Int × Qaddress :=
  let address := { address with ip := cString ip }
  match str2int port port.length with
  | .success out => (0, { address with port := UInt16.ofInt out })
  | _ => (-1, address)

def set (address : Qaddress) (addr : Sockaddr) : Int × Qaddress :=
  match getnameinfo addr with
  | none => (-1, address)
  | some (name, port) => address.setText (cString name) (cString port)

/-- The bytes of the parts behind `index`, one for each part; `none` when a write
leaves `tmp`. -/
def serialiseParts :
    List Qstring → (tmp : List UInt8) → (index : Nat) → Option (Option (List UInt8 × Nat))
  | [], tmp, index => some (some (tmp, index))
  | n :: array, tmp, index =>
      match str2int n n.length with
      | .success v => (Buffer.write tmp index [UInt8.ofInt v]).bind fun tmp =>
        serialiseParts array tmp (index + 1)
      | _ => some none

/-- What `tmp` holds at first is never read. `none` is a write outside it. -/
def serialise (address : Qaddress) (buf : Qstring) : Option (Int × Qstring) := do
  let tmp ← Buffer.write (List.replicate 16 0) 0 (htons address.port)
  match ← serialiseParts (address.ip.split [46] true) tmp 2 with
  | none => some (-1, buf)
  | some (tmp, index) => some (0, Buffer.read tmp 0 index)

def deserialise (address : Qaddress) (buf : List UInt8) : Int × Qaddress :=
  match buf with
  | high :: low :: a :: b :: c :: d :: _ => (0, ⟨ntohs high low, InAddr.dottedQuad ⟨a, b, c, d⟩⟩)
  | _ => (-1, address)

theorem deserialise_append (address : Qaddress) (port : UInt16) (ip : InAddr) (rest : List UInt8) :
    address.deserialise (htons port ++ ip.bytes ++ rest) = (0, ⟨port, ip.dottedQuad⟩) := by
  simp only [htons, InAddr.bytes, List.cons_append, List.nil_append, deserialise, ntohs_htons]

theorem clean_dottedQuad (ip : InAddr) : Clean ip.dottedQuad := by
  have clean (n : Nat) : Clean (unsigned n) := clean_of_digits (unsigned_digits n)
  intro byte inside
  simp only [InAddr.dottedQuad, List.mem_append, List.mem_cons] at inside
  rcases inside with first | rfl | second | rfl | third | rfl | fourth
  · exact clean _ byte first
  · decide
  · exact clean _ byte second
  · decide
  · exact clean _ byte third
  · decide
  · exact clean _ byte fourth

/-- The dotted quad of an address is read back number by number. -/
theorem split_dottedQuad (ip : InAddr) :
    ip.dottedQuad.split [46] true = [unsigned ip.a.toNat, unsigned ip.b.toNat, unsigned ip.c.toNat,
      unsigned ip.d.toNat] := by
  have dotless (n : Nat) : 46 ∉ unsigned n := by
    intro inside
    exact absurd (isdigit_bounds (unsigned_digits n 46 inside)).1 (by decide)
  have clean (n : Nat) : cString (unsigned n) = unsigned n :=
    cString_of_nul_free (clean_of_digits (unsigned_digits n))
  have parts : ip.dottedQuad.splitOn 46 =
      [unsigned ip.a.toNat, unsigned ip.b.toNat, unsigned ip.c.toNat] ++ [unsigned ip.d.toNat] := by
    simp only [InAddr.dottedQuad, List.splitOn_append_cons_self_of_not_mem (dotless _),
      List.splitOn_eq_singleton (dotless _), List.cons_append, List.nil_append]
  rw [split_of_splitOn parts, if_pos ⟨unsigned_ne_nil _, List.cons_ne_nil _ _⟩]
  simp only [List.cons_append, List.nil_append, List.map_cons, List.map_nil, clean]

theorem set_bytes (address : Qaddress) (addr : SockaddrIn) :
    address.set addr.bytes = (0, ⟨addr.sinPort, addr.sinAddr.dottedQuad⟩) := by
  have small : ((addr.sinPort.toNat : Nat) : Int) ≤ intMax := by
    have bound := addr.sinPort.toNat_lt
    simp only [intMax]
    omega
  have quad := clean_dottedQuad addr.sinAddr
  have same : UInt16.ofInt addr.sinPort.toNat = addr.sinPort := by
    apply UInt16.toNat_inj.mp
    have bound := addr.sinPort.toNat_lt
    simp only [UInt16.ofInt, UInt16.toNat_ofNat']
    omega
  have port : Clean (unsigned addr.sinPort.toNat) := clean_of_digits (unsigned_digits _)
  simp only [set, addr.getnameinfo_bytes, cString_of_nul_free quad, cString_of_nul_free port,
    setText, str2int_unsigned small, same]

/-- An address is kept as its port and its four bytes. -/
theorem serialise_spec (port : UInt16) (ip : InAddr) (buf : Qstring) :
    serialise ⟨port, ip.dottedQuad⟩ buf = some (0, htons port ++ ip.bytes) := by
  have part (byte : UInt8) : str2int (unsigned byte.toNat) (unsigned byte.toNat).length =
      .success byte.toNat := by
    apply str2int_unsigned
    have bound := byte.toNat_lt
    simp only [intMax]
    omega
  have octet (byte : UInt8) : UInt8.ofInt byte.toNat = byte := by
    apply UInt8.toNat_inj.mp
    have bound := byte.toNat_lt
    simp only [UInt8.ofInt, UInt8.toNat_ofNat']
    omega
  simp only [serialise, split_dottedQuad, serialiseParts, part, octet]
  rfl

end Qaddress
end Gearsdk
