import Gearsdk.Qaddress

/-! The tokens by which the servers recognise a client's address: a fixed text, the
address and the connection id that the client has chosen. The HTTP/3 server and
the game server have the same two functions each. -/
namespace Gearsdk

namespace AddressToken

def quicheMaxConnIdLen : Nat := 20

def sizeofSockaddrStorage : Nat := 128

/-- A read that leaves its array is `none`. -/
def readAt (buf : List UInt8) (start length : Nat) : Option (List UInt8) :=
  if start + length ≤ buf.length then some (Buffer.read buf start length) else none

/-- The token and its length. -/
def mint (text : Qstring) (dcid : List UInt8) (addr : Sockaddr) (token : List UInt8) :
    Option (List UInt8 × Nat) := do
  let token ← Buffer.write token 0 text
  let token ← Buffer.write token text.length addr
  let token ← Buffer.write token (text.length + addr.length) dcid
  some (token, text.length + addr.length + dcid.length)

/-- Whether the token is valid, and the id and its length. -/
def validate (text : Qstring) (token : List UInt8) (addr : Sockaddr) (odcid : List UInt8) :
    Option (Bool × List UInt8 × Nat) := do
  let tokenLen := token.length
  if tokenLen < text.length then return (false, odcid, odcid.length)
  if (← readAt token 0 text.length) ≠ text then return (false, odcid, odcid.length)
  let tokenLen := tokenLen - text.length
  if tokenLen < addr.length then return (false, odcid, odcid.length)
  if (← readAt token text.length addr.length) ≠ addr then return (false, odcid, odcid.length)
  let tokenLen := tokenLen - addr.length
  if odcid.length < tokenLen then return (false, odcid, odcid.length)
  let odcid ← Buffer.write odcid 0 (← readAt token (text.length + addr.length) tokenLen)
  return (true, odcid, tokenLen)

end AddressToken

namespace Qh3server

def maxTokenLen : Nat := 6 + AddressToken.sizeofSockaddrStorage + AddressToken.quicheMaxConnIdLen

def mintToken := AddressToken.mint (Qstring.literal "quiche")

def validateToken := AddressToken.validate (Qstring.literal "quiche")

end Qh3server

namespace Qnetworkserver

def maxTokenLen : Nat := 6 + AddressToken.sizeofSockaddrStorage + AddressToken.quicheMaxConnIdLen

def mintToken := AddressToken.mint (Qstring.literal "quiche")

def validateToken := AddressToken.validate (Qstring.literal "quiche")

end Qnetworkserver

namespace AddressToken

theorem readAt_of_le (inside : start + length ≤ buf.length) :
    readAt buf start length = some (Buffer.read buf start length) :=
  if_pos inside

theorem read_middle (front middle back : List UInt8) :
    Buffer.read (front ++ middle ++ back) front.length middle.length = middle := by
  rw [Buffer.read, List.append_assoc, List.drop_left, List.take_left]

/-- A token is accepted when what follows the text and the address fits the id, and
then that is the id. -/
inductive Outcome (text : Qstring) (token : List UInt8) (addr : Sockaddr) (odcid : List UInt8) :
    Option (Bool × List UInt8 × Nat) → Prop where
  | accepted (shape : token = text ++ addr ++ connId)
      (wrote : Buffer.write odcid 0 connId = some odcid') :
      Outcome text token addr odcid (some (true, odcid', connId.length))
  | refused (other : ∀ connId, token = text ++ addr ++ connId → odcid.length < connId.length) :
      Outcome text token addr odcid (some (false, odcid, odcid.length))

theorem length_token {token text : List UInt8} {addr : Sockaddr}
    (shape : token = text ++ addr ++ connId) :
    token.length = text.length + addr.length + connId.length := by
  rw [shape, List.length_append, List.length_append]

/-- What is read in front of the id are the text and the address. -/
theorem shape_of_reads {token text : List UInt8} {addr : Sockaddr}
    (start : Buffer.read token 0 text.length = text)
    (peer : Buffer.read token text.length addr.length = addr) :
    token = text ++ addr ++ token.drop (text.length + addr.length) := by
  have front : token.take (text.length + addr.length) = text ++ addr := by
    have both := Buffer.read_append token 0 text.length addr.length
    rw [Nat.zero_add, start, peer] at both
    exact both
  rw [← front, List.take_append_drop]

theorem validate_outcome (text : Qstring) (token : List UInt8) (addr : Sockaddr)
    (odcid : List UInt8) :
    Outcome text token addr odcid (validate text token addr odcid) := by
  simp only [validate]
  by_cases short : token.length < text.length
  · rw [if_pos short]
    refine .refused fun connId shape => ?_
    have length := length_token shape
    omega
  rw [if_neg short, readAt_of_le (by omega), Option.bind_eq_bind, Option.bind_some]
  by_cases start : Buffer.read token 0 text.length = text
  · rw [if_neg (not_not.mpr start)]
    by_cases shorter : token.length - text.length < addr.length
    · rw [if_pos shorter]
      refine .refused fun connId shape => ?_
      have length := length_token shape
      omega
    rw [if_neg shorter, readAt_of_le (by omega), Option.bind_some]
    by_cases peer : Buffer.read token text.length addr.length = addr
    · rw [if_neg (not_not.mpr peer)]
      generalize rest : token.drop (text.length + addr.length) = connId
      have shape : token = text ++ addr ++ connId := rest ▸ shape_of_reads start peer
      have length := length_token shape
      have left : token.length - text.length - addr.length = connId.length := by omega
      rw [left]
      by_cases long : odcid.length < connId.length
      · rw [if_pos long]
        refine .refused fun other again => ?_
        have same := length_token again
        omega
      have bytes : Buffer.read token (text.length + addr.length) connId.length = connId := by
        rw [Buffer.read, rest, List.take_length]
      have fits : 0 + connId.length ≤ odcid.length := by omega
      rw [if_neg long, readAt_of_le (by omega), bytes, Option.bind_some, Buffer.write_of_fits fits,
        Option.bind_some]
      exact .accepted shape (Buffer.write_of_fits fits)
    · rw [if_pos peer]
      refine .refused fun connId shape => absurd ?_ peer
      rw [shape]
      exact read_middle text addr connId
  · rw [if_pos start]
    refine .refused fun connId shape => absurd ?_ start
    rw [shape, List.append_assoc]
    exact read_middle [] text (addr ++ connId)

theorem validate_of_shape {token text : List UInt8} {addr : Sockaddr} (odcid : List UInt8)
    (shape : token = text ++ addr ++ connId) (fits : connId.length ≤ odcid.length) :
    ∃ odcid', validate text token addr odcid = some (true, odcid', connId.length) ∧
      odcid'.take connId.length = connId := by
  have outcome := validate_outcome text token addr odcid
  generalize validate text token addr odcid = result at outcome ⊢
  cases outcome with
  | @accepted other odcid' again wrote =>
    obtain rfl : connId = other := List.append_cancel_left (shape.symm.trans again)
    have written := Buffer.take_write wrote
    rw [Nat.zero_add] at written
    exact ⟨odcid', rfl, written⟩
  | refused other => exact absurd fits (Nat.not_le.mpr (other connId shape))

theorem validate_of_other {token text : List UInt8} {addr : Sockaddr} (odcid : List UInt8)
    (other : ∀ connId, token ≠ text ++ addr ++ connId) :
    validate text token addr odcid = some (false, odcid, odcid.length) := by
  have outcome := validate_outcome text token addr odcid
  generalize validate text token addr odcid = result at outcome ⊢
  cases outcome with
  | accepted shape => exact absurd shape (other _)
  | refused => rfl

theorem mint_of_fits (text : Qstring) (dcid : List UInt8) (addr : Sockaddr) {token : List UInt8}
    (fits : text.length + addr.length + dcid.length ≤ token.length) :
    ∃ token', mint text dcid addr token = some (token', text.length + addr.length + dcid.length) := by
  obtain ⟨first, written⟩ : ∃ first, Buffer.write token 0 text = some first :=
    ⟨_, Buffer.write_of_fits (by omega)⟩
  have length := Buffer.length_write written
  obtain ⟨second, appended⟩ : ∃ second, Buffer.write first text.length addr = some second :=
    ⟨_, Buffer.write_of_fits (by omega)⟩
  have length' := Buffer.length_write appended
  obtain ⟨third, completed⟩ : ∃ third, Buffer.write second (text.length + addr.length) dcid =
    some third :=
    ⟨_, Buffer.write_of_fits (by omega)⟩
  refine ⟨third, ?_⟩
  simp only [mint, written, appended, completed, Option.bind_eq_bind, Option.bind_some]

/-- A minted token is the text, the address and the id. -/
theorem take_of_mint {token : List UInt8}
    (minted : mint text dcid addr token = some (token', tokenLen)) :
    token'.take tokenLen = text ++ addr ++ dcid := by
  simp only [mint, Option.bind_eq_bind, Option.bind_eq_some_iff, Option.some.injEq,
    Prod.mk.injEq] at minted
  obtain ⟨first, written, second, appended, third, completed, rfl, rfl⟩ := minted
  have start := Buffer.take_write written
  rw [Nat.zero_add, List.take_zero, List.nil_append] at start
  rw [Buffer.take_write completed, Buffer.take_write appended, start]

/-- What minting and validating have to do with one another. -/
structure Sound (mint : List UInt8 → Sockaddr → List UInt8 → Option (List UInt8 × Nat))
    (validate : List UInt8 → Sockaddr → List UInt8 → Option (Bool × List UInt8 × Nat))
    (maxTokenLen : Nat) : Prop where
  recovers : ∀ dcid addr token odcid, dcid.length ≤ quicheMaxConnIdLen →
    addr.length ≤ sizeofSockaddrStorage →
    token.length = maxTokenLen → odcid.length = quicheMaxConnIdLen →
      ∃ token' tokenLen odcid', mint dcid addr token = some (token', tokenLen) ∧
        validate (token'.take tokenLen) addr odcid = some (true, odcid', dcid.length) ∧
          odcid'.take dcid.length = dcid
  rejects : ∀ dcid addr token token' tokenLen other odcid,
    mint dcid addr token = some (token', tokenLen) →
    other.length = addr.length → other ≠ addr →
      validate (token'.take tokenLen) other odcid = some (false, odcid, odcid.length)
  inside : ∀ token addr odcid, validate token addr odcid ≠ none

theorem sound (text : Qstring)
    (room : text.length + sizeofSockaddrStorage + quicheMaxConnIdLen ≤ maxTokenLen) :
    Sound (mint text) (validate text) maxTokenLen := by
  refine ⟨?_, ?_, ?_⟩
  · intro dcid addr token odcid short fits size buffer
    obtain ⟨token', minted⟩ := mint_of_fits text dcid addr (by omega : _ ≤ token.length)
    obtain ⟨odcid', accepted, recovered⟩ := validate_of_shape odcid (take_of_mint minted) (by omega)
    exact ⟨token', _, odcid', minted, accepted, recovered⟩
  · intro dcid addr token token' tokenLen other odcid minted length different
    refine validate_of_other odcid fun connId shape => different ?_
    rw [take_of_mint minted, List.append_assoc, List.append_assoc] at shape
    exact (List.append_inj (List.append_cancel_left shape) length.symm).1.symm
  · intro token addr odcid none
    have outcome := validate_outcome text token addr odcid
    rw [none] at outcome
    contradiction

/-- The two servers that validate tokens. -/
inductive Server where
  | qh3server
  | qnetworkserver

def Server.mintToken : Server → List UInt8 → Sockaddr → List UInt8 → Option (List UInt8 × Nat)
  | qh3server => Qh3server.mintToken
  | qnetworkserver => Qnetworkserver.mintToken

def Server.validateToken :
    Server → List UInt8 → Sockaddr → List UInt8 → Option (Bool × List UInt8 × Nat)
  | qh3server => Qh3server.validateToken
  | qnetworkserver => Qnetworkserver.validateToken

def Server.maxTokenLen : Server → Nat
  | qh3server => Qh3server.maxTokenLen
  | qnetworkserver => Qnetworkserver.maxTokenLen

/-- Each server recovers the id from a token of its own for the same address only,
stays inside its arrays, and answers every token like the other. -/
theorem tokens_sound (server : Server) :
    Sound server.mintToken server.validateToken server.maxTokenLen ∧
      ∀ (other : Server) token addr odcid, other.validateToken token addr odcid =
        server.validateToken token addr odcid := by
  constructor
  · cases server with
    | qh3server => exact sound (Qstring.literal "quiche") (by decide +kernel)
    | qnetworkserver => exact sound (Qstring.literal "quiche") (by decide +kernel)
  · intro other token addr odcid
    cases server <;> cases other <;> rfl

end AddressToken
end Gearsdk
