import Gearsdk.Crc32
import Gearsdk.Json

/-! The messages a room server reads: the first hi message, the header that
selects a handler, the match request with its room configuration, and the
shutdown request. A document is the parse result of one received buffer; `none`
stands for a parse error. -/
namespace Gearsdk

/-- `get_type_string_crc`: message classes are told apart by the CRC of their
type string. -/
def typeStringCrc (typeString : String) : Nat :=
  Crc32.checksum (Qstring.literal typeString)

theorem typeStringCrc_lt (typeString : String) : typeStringCrc typeString < 2 ^ 32 :=
  Crc32.checksum_lt _

def fxTwo : Int := 8192

structure MsgRoomConfig where
  min : Int := 2
  max : Int := 4
  betx : Int := 0
  rewardx : Int := fxTwo
  allowAfterStart : Bool := false

/-- All five fields are mandatory. -/
def MsgRoomConfig.deserialize (obj : Json) : Option MsgRoomConfig := do
  let min ← (obj.member? "min").bind Json.getInt
  let max ← (obj.member? "max").bind Json.getInt
  let betx ← (obj.member? "betx").bind Json.getInt
  let rewardx ← (obj.member? "rewardx").bind Json.getInt
  let allowAfterStart ← (obj.member? "allow_after_start").bind Json.getBool
  return { min, max, betx, rewardx, allowAfterStart }

def MsgRoomConfig.serialize (config : MsgRoomConfig) : List (Qstring × Json) :=
  [(Qstring.literal "min", .int config.min), (Qstring.literal "max", .int config.max),
    (Qstring.literal "betx", .int config.betx), (Qstring.literal "rewardx", .int config.rewardx),
    (Qstring.literal "allow_after_start", .bool config.allowAfterStart)]

structure MessageRoomBase where
  signature : Nat := 0x7A9B
  cachedTypeStringCrc : Nat

/-- Reads `sig` and `t_crc` where they are present; it never rejects. -/
def MessageRoomBase.deserialize (base : MessageRoomBase) (obj : Json) : MessageRoomBase :=
  { signature := (((obj.member? "sig").bind Json.getUint).map (· % 2 ^ 16)).getD base.signature
    cachedTypeStringCrc :=
      (((obj.member? "t_crc").bind Json.getInt64).map fun crc => (crc % 2 ^ 64).toNat).getD
        base.cachedTypeStringCrc }

/-- The CRC written is that of the class. -/
def MessageRoomBase.serialize (base : MessageRoomBase) (typeCrc : Nat) : List (Qstring × Json) :=
  [(Qstring.literal "sig", .int base.signature), (Qstring.literal "t_crc", .int typeCrc)]

/-- The error codes are those of `deserialize_header`. -/
def deserializeHeader (doc : Option Json) : Except Int (Nat × Nat) :=
  match doc with
  | none => .error (-1)
  | some obj =>
      if obj.isObject then
        let sig := (((obj.member? "sig").bind Json.getUint).map (· % 2 ^ 16)).getD 0
        match (obj.member? "t_crc").bind Json.getInt64 with
        | some crc => .ok (sig, (crc % 2 ^ 64).toNat)
        | none => .error (-3)
      else .error (-2)

def deserializeFirstHiMessage (doc : Option Json) : Int :=
  match doc with
  | none => -1
  | some obj =>
      if obj.isObject then
        match (obj.member? "m").bind Json.getString with
        | some firstHi => if firstHi = Qstring.literal "hi" then 0 else -4
        | none => -3
      else -2

structure MsgRoomMatchRequest where
  base : MessageRoomBase := { cachedTypeStringCrc := typeStringCrc "msg_room_match_request" }
  roomConfig : MsgRoomConfig := {}
  /-- Used for reconnection. -/
  prevCidHashVal : Nat := 0
  /-- Used for reconnection. -/
  roomId : Int := -1
  pid : Qstring := []

def MsgRoomMatchRequest.deserialize (obj : Json) : Option MsgRoomMatchRequest := do
  let initial : MsgRoomMatchRequest := {}
  let roomConfigObj ← (obj.member? "room_config").filter Json.isObject
  let roomConfig ← MsgRoomConfig.deserialize roomConfigObj
  let pid ← (obj.member? "pid").bind Json.getString
  return {
    base := initial.base.deserialize obj
    roomConfig
    pid
    prevCidHashVal :=
      ((obj.member? "prev_cid_hash_val").bind Json.getUint).getD initial.prevCidHashVal
    roomId := ((obj.member? "room_id").bind Json.getInt).getD initial.roomId }

def MsgRoomMatchRequest.serialize (msg : MsgRoomMatchRequest) : Json :=
  .object (msg.base.serialize (typeStringCrc "msg_room_match_request") ++
    [(Qstring.literal "room_config", .object msg.roomConfig.serialize),
      (Qstring.literal "prev_cid_hash_val", .int msg.prevCidHashVal),
      (Qstring.literal "room_id", .int msg.roomId), (Qstring.literal "pid", .string msg.pid)])

structure MsgRoomServerShutdown where
  base : MessageRoomBase := { cachedTypeStringCrc := typeStringCrc "msg_room_server_shutdown" }

/-- Every document deserialises. -/
def MsgRoomServerShutdown.deserialize (obj : Json) : MsgRoomServerShutdown :=
  let initial : MsgRoomServerShutdown := {}
  { base := initial.base.deserialize obj }

/-- The assertion inside `message_room_base::deserialize` compares the received
`t_crc` with the CRC of the class. The handler table has already compared the
same two numbers, so it cannot fail after a dispatch. -/
theorem dispatched_crc_asserted {obj : Json}
    (header : deserializeHeader (some obj) = .ok (sig, crc)) (base : MessageRoomBase) :
    (base.deserialize obj).cachedTypeStringCrc = crc := by
  unfold deserializeHeader at header
  simp only at header
  split at header
  · cases received : (obj.member? "t_crc").bind Json.getInt64 with
    | none => simp [received] at header
    | some value =>
      simp only [received, Except.ok.injEq, Prod.mk.injEq] at header
      simp only [MessageRoomBase.deserialize, received, Option.map_some, Option.getD_some]
      exact header.2
  · contradiction

/-! ### Round trips -/

/-- The values that the C++ fields of a configuration can have. -/
structure MsgRoomConfig.Fits (config : MsgRoomConfig) : Prop where
  min : -2 ^ 31 ≤ config.min ∧ config.min ≤ 2 ^ 31 - 1
  max : -2 ^ 31 ≤ config.max ∧ config.max ≤ 2 ^ 31 - 1
  betx : -2 ^ 31 ≤ config.betx ∧ config.betx ≤ 2 ^ 31 - 1
  rewardx : -2 ^ 31 ≤ config.rewardx ∧ config.rewardx ≤ 2 ^ 31 - 1

theorem MsgRoomConfig.deserialize_serialize (config : MsgRoomConfig) (fits : config.Fits) :
    MsgRoomConfig.deserialize (.object config.serialize) = some config := by
  have min : (Json.object config.serialize).member? "min" = some (.int config.min) := rfl
  have max : (Json.object config.serialize).member? "max" = some (.int config.max) := rfl
  have betx : (Json.object config.serialize).member? "betx" = some (.int config.betx) := rfl
  have rewardx : (Json.object config.serialize).member? "rewardx" = some (.int config.rewardx) :=
    rfl
  have allow : (Json.object config.serialize).member? "allow_after_start" =
    some (.bool config.allowAfterStart) := rfl
  simp only [deserialize, min, max, betx, rewardx, allow, Option.bind_some, Json.getInt,
    Json.inRange, if_pos fits.min, if_pos fits.max, if_pos fits.betx, if_pos fits.rewardx,
    Json.getBool, bind, pure]

structure MsgRoomMatchRequest.Fits (msg : MsgRoomMatchRequest) : Prop where
  roomConfig : msg.roomConfig.Fits
  prevCidHashVal : msg.prevCidHashVal < 2 ^ 32
  roomId : -2 ^ 31 ≤ msg.roomId ∧ msg.roomId ≤ 2 ^ 31 - 1
  pid : ∀ byte ∈ msg.pid, byte ≠ 0

/-- What a client serialises is what the server's handler gets. -/
theorem MsgRoomMatchRequest.deserialize_serialize (msg : MsgRoomMatchRequest) (fits : msg.Fits) :
    MsgRoomMatchRequest.deserialize msg.serialize =
      some { msg with base := ({} : MsgRoomMatchRequest).base.deserialize msg.serialize } := by
  have config : msg.serialize.member? "room_config" = some (.object msg.roomConfig.serialize) := rfl
  have pid : msg.serialize.member? "pid" = some (.string msg.pid) := rfl
  have prev : msg.serialize.member? "prev_cid_hash_val" = some (.int msg.prevCidHashVal) := rfl
  have roomId : msg.serialize.member? "room_id" = some (.int msg.roomId) := rfl
  have inside : (0 : Int) ≤ msg.prevCidHashVal ∧ (msg.prevCidHashVal : Int) ≤ 2 ^ 32 - 1 := by
    have bound := fits.prevCidHashVal
    omega
  simp only [deserialize, config, pid, prev, roomId, Option.filter_some, Json.isObject, if_true,
    Option.bind_some, MsgRoomConfig.deserialize_serialize msg.roomConfig fits.roomConfig,
    Json.getString, Qstring.cString_of_nul_free fits.pid, Json.getUint, Json.getInt, Json.inRange,
    if_pos inside, if_pos fits.roomId, Option.map_some, Option.getD_some, Int.toNat_natCast, bind,
    pure]

end Gearsdk
