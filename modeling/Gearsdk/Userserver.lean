import Gearsdk.Qh3server
import Gearsdk.Utf16

/-! The way of a response from a script to its stream: a text in UTF-16 with its length, the
binding that takes both, a packet of that many bytes in the queue of the main thread, and the
response record of the connection. -/
namespace Gearsdk
namespace Userserver
open Qstring Utf16

structure ResponsePacket where
  cid : Qstring
  payload : Qstring

/-- `bin_copy` takes the bytes of a C string up to a length. There is no packet if that is
behind the terminator. -/
def ResponsePacket.create (cid payload : Qstring) (len : Nat) : Option ResponsePacket :=
  if len ≤ payload.length + 1 then some ⟨cid, (payload ++ [0]).take len⟩ else none

/-- `qh3server_try_send_response` with the packet that it enqueues. -/
def qh3serverTrySendResponse (cid payload : Qstring) (len : Nat) : Option ResponsePacket :=
  ResponsePacket.create cid payload len

/-- The arguments of the script. -/
structure Response where
  cid : Qstring
  payload : Text
  payloadLen : Nat

/-- The binding converts the text to UTF-8 and the length to 32 bits. -/
def Response.napiQh3serverTrySendResponse (response : Response) : Option ResponsePacket :=
  qh3serverTrySendResponse response.cid (utf8 response.payload) (response.payloadLen % 2 ^ 32)

/-- `\x7b\x7d` -/
def emptyObject : Text := [123, 125]

/-- What `process_request` responds with. A result that is empty counts as none. -/
def Response.ofResult (cid : Qstring) (result : Option Text) : Response :=
  match result with
  | some (unit :: rest) => ⟨cid, unit :: rest, (unit :: rest).length⟩
  | _ => ⟨cid, emptyObject, 2⟩

/-- The main thread takes a packet out of the queue. -/
def notifyServer (alternateProtocol : Qstring) (conn : ConnIoQh3) (packet : ResponsePacket)
    (window : Nat) :
    ConnIoQh3 × List H3Write :=
  { conn with
    httpResponse := conn.httpResponse.setPayload packet.payload }.sendResponse alternateProtocol window

/-- A result is queued and, where the stream has room for it, sent as its complete UTF-8. -/
def SentWhole (cid : Qstring) (result : Text) : Prop :=
  ∃ packet, (Response.ofResult cid (some result)).napiQh3serverTrySendResponse = some packet ∧
    packet.payload = utf8 result ∧
    ∀ alternateProtocol conn window, (utf8 result).length ≤ window →
      bodyOn conn.streamId (notifyServer alternateProtocol conn packet window).2 = utf8 result

variable {cid : Qstring} {result : Text}

/-- The binding never reads behind the terminator, and what it queues is a beginning. -/
theorem packet_of_result (cid : Qstring) (filled : result ≠ []) :
    (Response.ofResult cid (some result)).napiQh3serverTrySendResponse =
      some ⟨cid, (utf8 result).take (result.length % 2 ^ 32)⟩ := by
  have response : Response.ofResult cid (some result) = ⟨cid, result, result.length⟩ := by
    obtain ⟨unit, rest, rfl⟩ := List.exists_cons_of_ne_nil filled
    rfl
  have inside : result.length % 2 ^ 32 ≤ (utf8 result).length :=
    Nat.le_trans (Nat.mod_le _ _) (length_utf8 result).1
  rw [response, Response.napiQh3serverTrySendResponse, qh3serverTrySendResponse,
    ResponsePacket.create, if_pos (Nat.le_succ_of_le inside), List.take_append_of_le_length inside]

theorem packet_of_empty (cid : Qstring) :
    (Response.ofResult cid (some [])).napiQh3serverTrySendResponse = some ⟨cid, [123, 125]⟩ := rfl

theorem queued_whole_iff (result : Text) :
    (utf8 result).take (result.length % 2 ^ 32) = utf8 result ↔ IsAscii result ∧
      result.length < 2 ^ 32 := by
  have longer := length_utf8 result
  have below := Nat.mod_le result.length (2 ^ 32)
  have bound := Nat.mod_lt result.length (Nat.two_pow_pos 32)
  rw [List.take_eq_self_iff, ← longer.2]
  constructor
  · intro enough
    omega
  · rintro ⟨ascii, short⟩
    rw [Nat.mod_eq_of_lt short]
    exact ascii

theorem sent_body (alternateProtocol : Qstring) (conn : ConnIoQh3) (packet : ResponsePacket)
    (window : Nat) :
    bodyOn conn.streamId (notifyServer alternateProtocol conn packet window).2 =
      (payloadSent (cString packet.payload)).take window := by
  obtain ⟨writes, sent, body, _⟩ := ConnIoQh3.sendResponse_spec alternateProtocol
    { conn with httpResponse := conn.httpResponse.setPayload packet.payload } window
  rw [notifyServer, sent]
  exact body

theorem clean_utf8_iff (ascii : IsAscii result) :
    Clean (utf8 result) ↔ ∀ unit ∈ result, 0 < unit.toNat := by
  rw [utf8_ascii ascii, Clean, List.forall_mem_map]
  refine forall₂_congr fun unit member => ?_
  have small := ascii unit member
  rw [Nat.pos_iff_ne_zero, ne_eq, ne_eq, ← UInt8.toNat_inj, UInt8.toNat_ofNat',
    Nat.mod_eq_of_lt (by omega)]
  exact Iff.rfl

theorem payloadSent_cString_iff (filled : bytes ≠ []) :
    payloadSent (cString bytes) = bytes ↔ Clean bytes := by
  rw [← cString_eq_self_iff]
  constructor
  · intro same
    rw [payloadSent] at same
    split at same
    · subst same
      decide +kernel
    · exact same
  · intro same
    rw [same, payloadSent, if_neg filled]

/-- A result goes out whole just when it is not empty, has only ASCII characters that are no
NULs, and has a length of 32 bits. -/
theorem sent_whole_iff (cid : Qstring) (result : Text) : SentWhole cid result ↔
    result ≠ [] ∧ (∀ unit ∈ result, 0 < unit.toNat ∧ unit.toNat < 128) ∧
      result.length < 2 ^ 32 := by
  by_cases filled : result = []
  · subst filled
    refine iff_of_false ?_ fun holds => holds.1 rfl
    rintro ⟨packet, queued, whole, _⟩
    rw [packet_of_empty] at queued
    obtain rfl := Option.some.inj queued
    contradiction
  · have bytes : utf8 result ≠ [] := by
      have longer := (length_utf8 result).1
      have some_unit := List.length_pos_iff.mpr filled
      exact List.length_pos_iff.mp (by omega)
    have units : (∀ unit ∈ result, 0 < unit.toNat ∧ unit.toNat < 128) ↔
        (∀ unit ∈ result, 0 < unit.toNat) ∧ IsAscii result := forall₂_and
    rw [units]
    constructor
    · rintro ⟨packet, queued, whole, sent⟩
      rw [packet_of_result cid filled] at queued
      obtain rfl := Option.some.inj queued
      obtain ⟨ascii, short⟩ := (queued_whole_iff result).mp whole
      have shorter := List.IsPrefix.length_le <| cString_prefix (utf8 result)
      have room := payloadSent_length (cString (utf8 result))
      have body := sent [] {} ((utf8 result).length + 2) (Nat.le_add_right _ _)
      rw [sent_body, whole, List.take_of_length_le (Nat.le_trans room (Nat.add_le_add_right shorter 2)),
        payloadSent_cString_iff bytes, clean_utf8_iff ascii] at body
      exact ⟨filled, ⟨body, ascii⟩, short⟩
    · rintro ⟨_, ⟨positive, ascii⟩, short⟩
      have whole := (queued_whole_iff result).mpr ⟨ascii, short⟩
      refine ⟨_, packet_of_result cid filled, whole, fun alternateProtocol conn window room => ?_⟩
      rw [sent_body, whole, (payloadSent_cString_iff bytes).mpr ((clean_utf8_iff ascii).mpr positive),
        List.take_of_length_le room]

/-- The letter é has two bytes, of which one is queued. -/
theorem accent_cut : ¬ ∀ cid result, SentWhole cid result := by
  intro sent
  have ascii := ((sent_whole_iff [] [0xE9]).mp (sent [] [0xE9])).2.1 0xE9 List.mem_cons_self
  exact absurd ascii.2 (by decide)

end Userserver
end Gearsdk
