import Gearsdk.Message.User
import Gearsdk.Room

/-! The room messages and the events that a room sends to its players. The
player events go through a message class; the start and the end are written by
hand. -/
namespace Gearsdk
open Std Qstring

structure MsgRoomServerEventBase where
  base : MessageRoomBase
  roomEvent : Qstring := []

def MsgRoomServerEventBase.deserialize (msg : MsgRoomServerEventBase) (obj : Json) :
    Option MsgRoomServerEventBase := do
  let roomEvent ← (obj.member? "room_event").bind Json.getString
  some { base := msg.base.deserialize obj, roomEvent }

def MsgRoomServerEventBase.serialize (msg : MsgRoomServerEventBase) (typeCrc : Nat) :
    List (Qstring × Json) :=
  msg.base.serialize typeCrc ++ [(literal "room_event", .string msg.roomEvent)]

def RoomPlayer.serialize (player : RoomPlayer) : List (Qstring × Json) :=
  [(literal "hash", .int player.hash), (literal "flag", .bool player.flag),
    (literal "pid", .string player.pid)]

def RoomPlayer.deserialize (obj : Json) : Option RoomPlayer := do
  let hash ← (obj.member? "hash").bind Json.getUint
  let flag ← (obj.member? "flag").bind Json.getBool
  let pid ← (obj.member? "pid").bind Json.getString
  some { hash, flag, pid }

/-- What `msg_room_server_event_player_add` and `msg_room_server_event_player_remove`
have in common: they differ in their type and in the event's name. -/
structure MsgRoomServerEventPlayers extends MsgRoomServerEventBase where
  roomId : Int := -1
  players : List RoomPlayer := []
  self : Nat := 0

namespace MsgRoomServerEventPlayers

def create (typeCrc : Nat) (roomEvent : String) : MsgRoomServerEventPlayers :=
  { base := { cachedTypeStringCrc := typeCrc }, roomEvent := literal roomEvent }

def serialize (typeCrc : Nat) (msg : MsgRoomServerEventPlayers) : List (Qstring × Json) :=
  msg.toMsgRoomServerEventBase.serialize typeCrc ++
    [(literal "room_id", .int msg.roomId), (literal "self", .int msg.self),
      (literal "players", .array (msg.players.map fun p => .object p.serialize))]

/-- The member is looked at only where it is an object, and then it has to be an
array. -/
def deserializePlayers (players : List RoomPlayer) (obj : Json) : Option (List RoomPlayer) :=
  match (obj.member? "players").filter Json.isObject with
  | some (.array elements) => some (players ++ elements.filterMap RoomPlayer.deserialize)
  | some _ => none
  | none => some players

def deserialize (msg : MsgRoomServerEventPlayers) (obj : Json) : Option MsgRoomServerEventPlayers :=
  do
  let base ← msg.toMsgRoomServerEventBase.deserialize obj
  let roomId ← (obj.member? "room_id").bind Json.getInt
  let players ← deserializePlayers msg.players obj
  some { base with roomId, players, self := ((obj.member? "self").bind Json.getUint).getD msg.self }

end MsgRoomServerEventPlayers

def MsgRoomServerEventPlayerAdd.typeCrc : Nat := typeStringCrc "msg_room_server_event_player_add"

def MsgRoomServerEventPlayerAdd.create : MsgRoomServerEventPlayers := .create typeCrc "player-add"

def MsgRoomServerEventPlayerAdd.serialize : MsgRoomServerEventPlayers → List (Qstring × Json) :=
  MsgRoomServerEventPlayers.serialize typeCrc

def MsgRoomServerEventPlayerAdd.deserialize : Json → Option MsgRoomServerEventPlayers :=
  create.deserialize

def MsgRoomServerEventPlayerRemove.typeCrc : Nat :=
  typeStringCrc "msg_room_server_event_player_remove"

def MsgRoomServerEventPlayerRemove.create : MsgRoomServerEventPlayers :=
  .create typeCrc "player-remove"

def MsgRoomServerEventPlayerRemove.serialize : MsgRoomServerEventPlayers → List (Qstring × Json) :=
  MsgRoomServerEventPlayers.serialize typeCrc

def MsgRoomServerEventPlayerRemove.deserialize : Json → Option MsgRoomServerEventPlayers :=
  create.deserialize

/-- What `msg_room_server_event_start` and `msg_room_server_event_end` have in common. -/
structure MsgRoomServerEventRoom extends MsgRoomServerEventBase where
  roomId : Int := -1

namespace MsgRoomServerEventRoom

def create (typeCrc : Nat) (roomEvent : String) : MsgRoomServerEventRoom :=
  { base := { cachedTypeStringCrc := typeCrc }, roomEvent := literal roomEvent }

def serialize (typeCrc : Nat) (msg : MsgRoomServerEventRoom) : List (Qstring × Json) :=
  msg.toMsgRoomServerEventBase.serialize typeCrc ++ [(literal "room_id", .int msg.roomId)]

def deserialize (msg : MsgRoomServerEventRoom) (obj : Json) : Option MsgRoomServerEventRoom := do
  let base ← msg.toMsgRoomServerEventBase.deserialize obj
  let roomId ← (obj.member? "room_id").bind Json.getInt
  some { base with roomId }

end MsgRoomServerEventRoom

def MsgRoomServerEventStart.typeCrc : Nat := typeStringCrc "msg_room_server_event_start"

def MsgRoomServerEventStart.create : MsgRoomServerEventRoom := .create typeCrc "room-start"

def MsgRoomServerEventStart.serialize : MsgRoomServerEventRoom → List (Qstring × Json) :=
  MsgRoomServerEventRoom.serialize typeCrc

def MsgRoomServerEventStart.deserialize : Json → Option MsgRoomServerEventRoom := create.deserialize

def MsgRoomServerEventEnd.typeCrc : Nat := typeStringCrc "msg_room_server_event_end"

def MsgRoomServerEventEnd.create : MsgRoomServerEventRoom := .create typeCrc "room-end"

def MsgRoomServerEventEnd.serialize : MsgRoomServerEventRoom → List (Qstring × Json) :=
  MsgRoomServerEventRoom.serialize typeCrc

def MsgRoomServerEventEnd.deserialize : Json → Option MsgRoomServerEventRoom := create.deserialize

/-! ### The texts a room sends -/

/-- `FindMember` and `RemoveMember`: the last member moves into the gap. -/
def Json.removeMember (name : String) (members : List (Qstring × Json)) : List (Qstring × Json) :=
  match members.findIdx? (·.1 = literal name), members.getLast? with
  | some i, some last => (members.set i last).dropLast
  | _, _ => members

namespace Room

/-- The loop over the players: the document is the same but for `self`. -/
def sendDocument (doc : List (Qstring × Json)) : List Player → List (QconnIo × Qstring)
  | [] => []
  | player :: players =>
      let doc := Json.removeMember "self" doc ++ [(literal "self", .int player.qconnection.cidHashVal)]
      (player.qconnection, Json.getJsonString (.object doc)) :: sendDocument doc players

/-- The list of players in an event about the player `p`. -/
def eventPlayers (r : Room) (p : Player) : List RoomPlayer :=
  r.players.map fun player =>
    { hash := player.qconnection.cidHashVal, flag := p.ptr = player.ptr, pid := player.pid }

/-- `send_event_player_add_or_remove`, with the texts it sends. -/
def playerEventTexts (r : Room) (p : Player) (add : Bool) : List (QconnIo × Qstring) :=
  let doc :=
    if add then
      MsgRoomServerEventPlayerAdd.serialize
        { MsgRoomServerEventPlayerAdd.create with roomId := r.roomId, players := r.eventPlayers p }
    else
      MsgRoomServerEventPlayerRemove.serialize
        { MsgRoomServerEventPlayerRemove.create with
          roomId := r.roomId, players := r.eventPlayers p }
  sendDocument doc r.players

/-- `send_event_room_start_or_end`, with the texts it sends. -/
def roomEventTexts (r : Room) (roomStart : Bool) : List (QconnIo × Qstring) :=
  let doc :=
    [(literal "room_event", Json.string (literal (if roomStart then "room_start" else "room_end"))),
    (literal "room_id", .int r.roomId)]
  r.players.map fun player => (player.qconnection, Json.getJsonString (.object doc))

end Room

/-! ### Round trips -/

/-- The values of the fields of a message object of the class with this CRC,
which the constructor has stored in it. -/
structure MessageRoomBase.Fits (base : MessageRoomBase) (typeCrc : Nat) : Prop where
  signature : base.signature < 2 ^ 16
  cached : base.cachedTypeStringCrc = typeCrc

section Members
variable {obj : Json} {typeCrc : Nat}

theorem MessageRoomBase.deserialize_members (fits : MessageRoomBase.Fits base typeCrc)
    (crc : typeCrc < 2 ^ 32) (hasSig : obj.member? "sig" = some (.int base.signature))
    (hasCrc : obj.member? "t_crc" = some (.int typeCrc)) (initial : MessageRoomBase) :
    initial.deserialize obj = base := by
  obtain ⟨signature, cached⟩ := base
  obtain ⟨small, rfl⟩ := fits
  simp only at small crc
  have sigRange : (0 : Int) ≤ signature ∧ (signature : Int) ≤ 2 ^ 32 - 1 := by omega
  have crcRange : (-2 ^ 63 : Int) ≤ cached ∧ (cached : Int) ≤ 2 ^ 63 - 1 := by omega
  have sigKept : signature % 2 ^ 16 = signature := Nat.mod_eq_of_lt small
  have crcKept : ((cached : Int) % 2 ^ 64).toNat = cached := by omega
  simp only [MessageRoomBase.deserialize, hasSig, hasCrc, Option.bind_some, Json.getUint,
    Json.getInt64, Json.inRange, if_pos sigRange, if_pos crcRange, Option.map_some,
    Option.getD_some, Int.toNat_natCast, sigKept, crcKept]

structure RoomPlayer.Fits (player : RoomPlayer) : Prop where
  hash : player.hash < 2 ^ 32
  pid : Clean player.pid

structure MsgRoomServerEventBase.Fits (msg : MsgRoomServerEventBase) (typeCrc : Nat) : Prop where
  base : msg.base.Fits typeCrc
  roomEvent : Clean msg.roomEvent

theorem MsgRoomServerEventBase.deserialize_members (fits : MsgRoomServerEventBase.Fits msg typeCrc)
    (crc : typeCrc < 2 ^ 32) (hasSig : obj.member? "sig" = some (.int msg.base.signature))
    (hasCrc : obj.member? "t_crc" = some (.int typeCrc))
    (hasEvent : obj.member? "room_event" = some (.string msg.roomEvent))
    (initial : MsgRoomServerEventBase) :
    initial.deserialize obj = some msg := by
  simp only [MsgRoomServerEventBase.deserialize, hasEvent, Option.bind_some, Json.getString_string,
    cString_of_nul_free fits.roomEvent,
      MessageRoomBase.deserialize_members fits.base crc hasSig hasCrc, bind]

structure MsgRoomServerEventPlayers.Fits (msg : MsgRoomServerEventPlayers) (typeCrc : Nat) : Prop
    extends msg.toMsgRoomServerEventBase.Fits typeCrc where
  roomId : -2 ^ 31 ≤ msg.roomId ∧ msg.roomId ≤ 2 ^ 31 - 1
  self : msg.self < 2 ^ 32
  players : ∀ player ∈ msg.players, player.Fits

/-- The array of players is no object: the reader goes past it. -/
theorem MsgRoomServerEventPlayers.deserialize_members
    (fits : MsgRoomServerEventPlayers.Fits msg typeCrc) (crc : typeCrc < 2 ^ 32)
    (hasSig : obj.member? "sig" = some (.int msg.base.signature))
    (hasCrc : obj.member? "t_crc" = some (.int typeCrc))
    (hasEvent : obj.member? "room_event" = some (.string msg.roomEvent))
    (hasRoom : obj.member? "room_id" = some (.int msg.roomId))
    (hasSelf : obj.member? "self" = some (.int msg.self))
    (hasPlayers : obj.member? "players" = some (.array elements))
    (initial : MsgRoomServerEventPlayers) :
    initial.deserialize obj = some { msg with players := initial.players } := by
  have base :=
    MsgRoomServerEventBase.deserialize_members fits.toFits crc hasSig hasCrc hasEvent
      initial.toMsgRoomServerEventBase
  have small := fits.self
  have selfRange : (0 : Int) ≤ msg.self ∧ (msg.self : Int) ≤ 2 ^ 32 - 1 := by omega
  have passed : deserializePlayers initial.players obj = some initial.players := by
    rw [deserializePlayers, hasPlayers]
    rfl
  simp only [MsgRoomServerEventPlayers.deserialize, base, hasRoom, hasSelf, passed,
    Option.bind_some, Json.getInt, Json.getUint, Json.inRange, if_pos fits.roomId, if_pos selfRange,
    Option.map_some, Option.getD_some, Int.toNat_natCast, bind]

structure MsgRoomServerEventRoom.Fits (msg : MsgRoomServerEventRoom) (typeCrc : Nat) : Prop
    extends msg.toMsgRoomServerEventBase.Fits typeCrc where
  roomId : -2 ^ 31 ≤ msg.roomId ∧ msg.roomId ≤ 2 ^ 31 - 1

end Members

theorem MsgRoomServerEventRoom.deserialize_serialize
    (fits : MsgRoomServerEventRoom.Fits msg typeCrc) (crc : typeCrc < 2 ^ 32)
    (initial : MsgRoomServerEventRoom) :
    initial.deserialize (.object (msg.serialize typeCrc)) = some msg := by
  have base : initial.toMsgRoomServerEventBase.deserialize (.object (msg.serialize typeCrc)) =
    some msg.toMsgRoomServerEventBase :=
    MsgRoomServerEventBase.deserialize_members fits.toFits crc rfl rfl rfl _
  have hasRoom : (Json.object (msg.serialize typeCrc)).member? "room_id" = some (.int msg.roomId) :=
    rfl
  simp only [deserialize, base, hasRoom, Option.bind_some, Json.getInt, Json.inRange,
    if_pos fits.roomId, bind]

theorem MsgRoomServerEventPlayers.deserialize_serialize
    (fits : MsgRoomServerEventPlayers.Fits msg typeCrc) (crc : typeCrc < 2 ^ 32)
    (initial : MsgRoomServerEventPlayers) :
    initial.deserialize (.object (msg.serialize typeCrc)) = some { msg with
      players := initial.players } :=
  deserialize_members fits crc rfl rfl rfl rfl rfl rfl initial

theorem RoomPlayer.plain_serialize (fits : RoomPlayer.Fits player) :
    (Json.object player.serialize).Plain := by
  have hash := fits.hash
  refine ⟨?_, trivial, trivial, trivial⟩
  rw [Json.Plain]
  omega

theorem RoomPlayer.plain_players {players : List RoomPlayer}
    (fits : ∀ player ∈ players, player.Fits) :
    (Json.array (players.map fun p => .object p.serialize)).Plain := by
  simp only [Json.Plain, Json.plainElements_iff, List.forall_mem_map]
  exact fun player inside => RoomPlayer.plain_serialize (fits player inside)

theorem MsgRoomServerEventBase.plain_serialize (fits : MsgRoomServerEventBase.Fits msg typeCrc)
    (crc : typeCrc < 2 ^ 32) :
    Json.PlainMembers (msg.serialize typeCrc) := by
  have small := fits.base.signature
  refine ⟨?_, ?_, trivial, trivial⟩ <;> rw [Json.Plain] <;> omega

theorem MsgRoomServerEventPlayers.plain_serialize
    (fits : MsgRoomServerEventPlayers.Fits msg typeCrc) (crc : typeCrc < 2 ^ 32) :
    (Json.object (msg.serialize typeCrc)).Plain := by
  have roomId := fits.roomId
  have self := fits.self
  have common := Json.plainMembers_iff.mp (MsgRoomServerEventBase.plain_serialize fits.toFits crc)
  rw [Json.Plain, Json.plainMembers_iff, serialize, List.forall_mem_append]
  refine ⟨common, Json.plainMembers_iff.mp ⟨?_, ?_, RoomPlayer.plain_players fits.players,
    trivial⟩⟩ <;> rw [Json.Plain] <;> omega

theorem MsgRoomServerEventRoom.plain_serialize (fits : MsgRoomServerEventRoom.Fits msg typeCrc)
    (crc : typeCrc < 2 ^ 32) :
    (Json.object (msg.serialize typeCrc)).Plain := by
  have roomId := fits.roomId
  have common := Json.plainMembers_iff.mp (MsgRoomServerEventBase.plain_serialize fits.toFits crc)
  rw [Json.Plain, Json.plainMembers_iff, serialize, List.forall_mem_append]
  refine ⟨common, Json.plainMembers_iff.mp ⟨?_, trivial⟩⟩
  rw [Json.Plain]
  omega

/-- A list of players is lost on the way. -/
theorem MsgRoomServerEventPlayers.eq_without_players {msg : MsgRoomServerEventPlayers} :
    { msg with players := [] } = msg ↔ msg.players = [] := by
  obtain ⟨base, roomId, players, self⟩ := msg
  simp only [mk.injEq, true_and, and_true]
  exact eq_comm

theorem MsgRoomServerEventPlayers.round_trip_iff (tooBig : Qstring → Bool)
    (fits : MsgRoomServerEventPlayers.Fits msg typeCrc) (crc : typeCrc < 2 ^ 32)
    (roomEvent : String) :
    MessageParser.parse tooBig (create typeCrc roomEvent).deserialize
      (Json.getJsonString (.object (msg.serialize typeCrc))) = some msg ↔
      msg.players = [] := by
  rw [MessageParser.parse_getJsonString tooBig (plain_serialize fits crc)
    (deserialize_serialize fits crc _), Option.some.injEq]
  exact eq_without_players

theorem MsgRoomServerEventRoom.round_trip (tooBig : Qstring → Bool)
    (fits : MsgRoomServerEventRoom.Fits msg typeCrc) (crc : typeCrc < 2 ^ 32)
    (initial : MsgRoomServerEventRoom) :
    MessageParser.parse tooBig initial.deserialize
      (Json.getJsonString (.object (msg.serialize typeCrc))) = some msg :=
  MessageParser.parse_getJsonString tooBig (plain_serialize fits crc)
    (deserialize_serialize fits crc initial)

/-! ### What the players are told -/

/-- The document that a player gets: the members of the class with `self` at the end. -/
def MsgRoomServerEventPlayers.sent (msg : MsgRoomServerEventPlayers) (typeCrc : Nat) :
    List (Qstring × Json) :=
  msg.toMsgRoomServerEventBase.serialize typeCrc ++
    [(literal "room_id", .int msg.roomId),
      (literal "players", .array (msg.players.map fun p => .object p.serialize)),
      (literal "self", .int msg.self)]

/-- What the class of the event with this name has to give to `player`. -/
def Room.playersEvent (r : Room) (p : Player) (typeCrc : Nat) (roomEvent : String)
    (player : Player) : MsgRoomServerEventPlayers :=
  { MsgRoomServerEventPlayers.create typeCrc roomEvent with
    roomId := r.roomId, players := r.eventPlayers p, self := player.qconnection.cidHashVal }

theorem Room.sendDocument_eq {doc common : List (Qstring × Json)}
    (first : Json.removeMember "self" doc = common)
    (again : ∀ hash : Int, Json.removeMember "self" (common ++ [(literal "self", .int hash)]) =
      common)
    (players : List Player) :
    sendDocument doc players = players.map fun player =>
      (player.qconnection,
        Json.getJsonString (.object (common ++
        [(literal "self", .int player.qconnection.cidHashVal)]))) := by
  induction players generalizing doc with
  | nil => rfl
  | cons player rest ih => rw [sendDocument, first, ih (again _), List.map_cons]

theorem Room.playerEventTexts_eq (r : Room) (p : Player) (add : Bool) :
    r.playerEventTexts p add = r.players.map fun player =>
      (player.qconnection, Json.getJsonString (.object
        (if add then
          (r.playersEvent p MsgRoomServerEventPlayerAdd.typeCrc "player-add" player).sent
            MsgRoomServerEventPlayerAdd.typeCrc
        else (r.playersEvent p MsgRoomServerEventPlayerRemove.typeCrc "player-remove" player).sent
          MsgRoomServerEventPlayerRemove.typeCrc))) := by
  cases add <;> exact sendDocument_eq rfl (fun _ => rfl) r.players

/-- The values of the C++ fields that an event shows. -/
structure Room.Fits (r : Room) : Prop where
  roomId : -2 ^ 31 ≤ r.roomId ∧ r.roomId ≤ 2 ^ 31 - 1
  hash : ∀ player ∈ r.players, player.qconnection.cidHashVal < 2 ^ 32
  pid : ∀ player ∈ r.players, Clean player.pid

theorem Room.playersEvent_fits (fits : Room.Fits r) (p : Player) (typeCrc : Nat)
    (clean : Clean (literal roomEvent)) (inside : player ∈ r.players) :
    (r.playersEvent p typeCrc roomEvent player).Fits typeCrc where
  base := ⟨(by decide : 0x7A9B < 2 ^ 16), rfl⟩
  roomEvent := clean
  roomId := fits.roomId
  self := fits.hash player inside
  players := by
    simp only [playersEvent, eventPlayers, List.forall_mem_map]
    exact fun other seated => ⟨fits.hash other seated, fits.pid other seated⟩

theorem MsgRoomServerEventPlayers.plain_sent (fits : MsgRoomServerEventPlayers.Fits msg typeCrc)
    (crc : typeCrc < 2 ^ 32) :
    (Json.object (msg.sent typeCrc)).Plain := by
  have roomId := fits.roomId
  have self := fits.self
  have common := Json.plainMembers_iff.mp (MsgRoomServerEventBase.plain_serialize fits.toFits crc)
  rw [Json.Plain, Json.plainMembers_iff, sent, List.forall_mem_append]
  refine ⟨common, Json.plainMembers_iff.mp ⟨?_, RoomPlayer.plain_players fits.players, ?_,
    trivial⟩⟩ <;> rw [Json.Plain] <;> omega

/-- An event that reaches anybody shows at least its receiver, and the reader
passes over the list. -/
theorem Room.event_decoded_iff (tooBig : Qstring → Bool) (fits : Room.Fits r) (p : Player)
    (crc : typeCrc < 2 ^ 32) (clean : Clean (literal roomEvent)) :
    (∀ player ∈ r.players,
      MessageParser.parse tooBig (MsgRoomServerEventPlayers.create typeCrc roomEvent).deserialize
        (Json.getJsonString (.object ((r.playersEvent p typeCrc roomEvent player).sent typeCrc))) =
      some (r.playersEvent p typeCrc roomEvent player)) ↔ r.players = [] := by
  have decoded : ∀ player ∈ r.players,
    MessageParser.parse tooBig (MsgRoomServerEventPlayers.create typeCrc roomEvent).deserialize
        (Json.getJsonString (.object ((r.playersEvent p typeCrc roomEvent player).sent typeCrc))) =
      some { r.playersEvent p typeCrc roomEvent player with players := [] } := by
    intro player inside
    have eventFits := playersEvent_fits fits p typeCrc clean inside
    exact MessageParser.parse_getJsonString tooBig (MsgRoomServerEventPlayers.plain_sent eventFits crc)
      (MsgRoomServerEventPlayers.deserialize_members eventFits crc rfl rfl rfl rfl rfl rfl _)
  constructor
  · intro all
    cases seated : r.players with
    | nil => rfl
    | cons player rest =>
      have inside : player ∈ r.players := by rw [seated]; exact List.mem_cons_self
      have same := Option.some.inj ((decoded player inside).symm.trans (all player inside))
      have none := MsgRoomServerEventPlayers.eq_without_players.mp same
      exact absurd (List.map_eq_nil_iff.mp none) (seated ▸ List.cons_ne_nil player rest)
  · intro empty player inside
    rw [empty] at inside
    exact absurd inside List.not_mem_nil

/-- The room's messages about players, as they come out of the class that reads them. -/
theorem Room.playerEvents_decoded_iff (tooBig : Qstring → Bool) (fits : Room.Fits r) (p : Player)
    (crc : typeCrc < 2 ^ 32) (clean : Clean (literal roomEvent)) :
    (r.players.map fun player => (player.qconnection,
      Json.getJsonString (.object ((r.playersEvent p typeCrc roomEvent player).sent typeCrc)))).map
        (fun sent => (sent.1, MessageParser.parse tooBig
          (MsgRoomServerEventPlayers.create typeCrc roomEvent).deserialize sent.2)) =
        r.players.map (fun player =>
          (player.qconnection, some (r.playersEvent p typeCrc roomEvent player))) ↔
      r.players = [] := by
  rw [← event_decoded_iff tooBig fits p crc clean, List.map_map, List.map_inj_left]
  simp only [Function.comp_apply, Prod.mk.injEq, true_and]

/-- The hand-written event has no `sig` and no `t_crc`. -/
theorem Room.roomEvent_decoded (tooBig : Qstring → Bool) (fits : Room.Fits r)
    (initial : MsgRoomServerEventRoom) (roomStart : Bool) :
    (r.roomEventTexts roomStart).map (fun sent =>
      (sent.1, MessageParser.parse tooBig initial.deserialize sent.2)) =
      r.players.map fun player => (player.qconnection, some { initial with
        roomEvent := literal (if roomStart then "room_start" else "room_end"),
        roomId := r.roomId }) := by
  let doc :=
    [(literal "room_event", Json.string (literal (if roomStart then "room_start" else "room_end"))),
    (literal "room_id", .int r.roomId)]
  have plain : (Json.object doc).Plain := by
    have roomId := fits.roomId
    refine ⟨trivial, ?_, trivial⟩
    rw [Json.Plain]
    omega
  have clean : Clean (literal (if roomStart then "room_start" else "room_end")) := by
    cases roomStart <;> decide
  have hasEvent : (Json.object doc).member? "room_event" =
    some (.string (literal (if roomStart then "room_start" else "room_end"))) := rfl
  have hasRoom : (Json.object doc).member? "room_id" = some (.int r.roomId) := rfl
  have kept : initial.base.deserialize (.object doc) = initial.base := rfl
  have decoded : initial.deserialize (.object doc) = some { initial with
      roomEvent := literal (if roomStart then "room_start" else "room_end"),
      roomId := r.roomId } := by
    simp only [MsgRoomServerEventRoom.deserialize, MsgRoomServerEventBase.deserialize, hasEvent,
      hasRoom, kept, Option.bind_some, Json.getString_string, cString_of_nul_free clean,
      Json.getInt, Json.inRange, if_pos fits.roomId, bind]
  rw [roomEventTexts, List.map_map]
  exact List.map_congr_left fun player _ =>
    congrArg (player.qconnection, ·) (MessageParser.parse_getJsonString tooBig plain decoded)

/-- The texts are those of the messages in the room model. -/
def ClientMessage.text : ClientMessage → Qstring
  | .playerAdd roomId players self => Json.getJsonString (.object
      (({ MsgRoomServerEventPlayerAdd.create with
        roomId, players, self } : MsgRoomServerEventPlayers).sent
        MsgRoomServerEventPlayerAdd.typeCrc))
  | .playerRemove roomId players self => Json.getJsonString (.object
      (({ MsgRoomServerEventPlayerRemove.create with
        roomId, players, self } : MsgRoomServerEventPlayers).sent
        MsgRoomServerEventPlayerRemove.typeCrc))
  | .roomStart roomId => Json.getJsonString (.object
      [(literal "room_event", .string (literal "room_start")), (literal "room_id", .int roomId)])
  | .roomEnd roomId => Json.getJsonString (.object
      [(literal "room_event", .string (literal "room_end")), (literal "room_id", .int roomId)])
  | .raw msg => msg

def RoomCall.sentText : RoomCall → Option (QconnIo × Qstring)
  | .sendmessage qconnection message => some (qconnection, message.text)
  | _ => none

theorem Room.playerEventTexts_sent (r : Room) (p : Player) (add : Bool) :
    (r.sendEventPlayerAddOrRemove p add).filterMap RoomCall.sentText =
      r.playerEventTexts p add := by
  rw [playerEventTexts_eq, sendEventPlayerAddOrRemove, List.filterMap_map,
    List.filterMap_eq_map_iff_forall_eq_some]
  cases add <;> exact fun _ _ => rfl

theorem Room.roomEventTexts_sent (r : Room) (roomStart : Bool) :
    (r.sendEventRoomStartOrEnd roomStart).filterMap RoomCall.sentText =
      r.roomEventTexts roomStart := by
  rw [roomEventTexts, sendEventRoomStartOrEnd, List.filterMap_map,
    List.filterMap_eq_map_iff_forall_eq_some]
  cases roomStart <;> exact fun _ _ => rfl

theorem MsgRoomMatchRequest.round_trip (tooBig : Qstring → Bool)
    (fits : MsgRoomMatchRequest.Fits msg)
    (base : msg.base.Fits (typeStringCrc "msg_room_match_request")) :
    MessageParser.parse tooBig MsgRoomMatchRequest.deserialize (Json.getJsonString msg.serialize) =
      some msg := by
  have crc := typeStringCrc_lt "msg_room_match_request"
  have plain : msg.serialize.Plain := by
    have signature := base.signature
    have roomId := fits.roomId
    have prev := fits.prevCidHashVal
    refine ⟨?_, ?_, MsgRoomConfig.plain_serialize fits.roomConfig, ?_, ?_, trivial, trivial⟩ <;>
      rw [Json.Plain] <;> omega
  have same : ({} : MsgRoomMatchRequest).base.deserialize msg.serialize = msg.base :=
    MessageRoomBase.deserialize_members base crc rfl rfl _
  have decoded : MsgRoomMatchRequest.deserialize msg.serialize = some msg := by
    rw [msg.deserialize_serialize fits, same]
  exact MessageParser.parse_getJsonString tooBig plain decoded

/-- Match requests and the start and the end of a room arrive as they were sent.
A list of players does not. -/
theorem room_messages_decoded_iff (tooBig : Qstring → Bool) :
    (∀ msg : MsgRoomMatchRequest, msg.Fits → msg.base.Fits (typeStringCrc "msg_room_match_request") →
      MessageParser.parse tooBig MsgRoomMatchRequest.deserialize
        (Json.getJsonString msg.serialize) = some msg) ∧
    (∀ msg : MsgRoomServerEventPlayers, msg.Fits MsgRoomServerEventPlayerAdd.typeCrc →
      (MessageParser.parse tooBig MsgRoomServerEventPlayerAdd.deserialize
        (Json.getJsonString (.object (MsgRoomServerEventPlayerAdd.serialize msg))) = some msg ↔
          msg.players = [])) ∧
    (∀ msg : MsgRoomServerEventPlayers, msg.Fits MsgRoomServerEventPlayerRemove.typeCrc →
      (MessageParser.parse tooBig MsgRoomServerEventPlayerRemove.deserialize
        (Json.getJsonString (.object (MsgRoomServerEventPlayerRemove.serialize msg))) = some msg ↔
          msg.players = [])) ∧
    (∀ msg : MsgRoomServerEventRoom, msg.Fits MsgRoomServerEventStart.typeCrc →
      MessageParser.parse tooBig MsgRoomServerEventStart.deserialize
        (Json.getJsonString (.object (MsgRoomServerEventStart.serialize msg))) = some msg) ∧
    (∀ msg : MsgRoomServerEventRoom, msg.Fits MsgRoomServerEventEnd.typeCrc →
      MessageParser.parse tooBig MsgRoomServerEventEnd.deserialize
        (Json.getJsonString (.object (MsgRoomServerEventEnd.serialize msg))) = some msg) ∧
    (∀ r : Room, r.Fits → ∀ p : Player,
      ((r.playerEventTexts p true).map (fun sent =>
        (sent.1, MessageParser.parse tooBig MsgRoomServerEventPlayerAdd.deserialize sent.2)) =
        r.players.map (fun player =>
          (player.qconnection,
            some (r.playersEvent p MsgRoomServerEventPlayerAdd.typeCrc "player-add" player))) ↔
            r.players = []) ∧
      ((r.playerEventTexts p false).map
          (fun sent => (sent.1,
            MessageParser.parse tooBig MsgRoomServerEventPlayerRemove.deserialize sent.2)) =
        r.players.map (fun player =>
          (player.qconnection,
            some (r.playersEvent p MsgRoomServerEventPlayerRemove.typeCrc "player-remove" player))) ↔
        r.players = [])) ∧
    (∀ r : Room, r.Fits →
      (r.roomEventTexts true).map (fun sent =>
        (sent.1, MessageParser.parse tooBig MsgRoomServerEventStart.deserialize sent.2)) =
        r.players.map (fun player => (player.qconnection,
          some { MsgRoomServerEventStart.create with
            roomEvent := literal "room_start", roomId := r.roomId })) ∧
      (r.roomEventTexts false).map (fun sent =>
        (sent.1, MessageParser.parse tooBig MsgRoomServerEventEnd.deserialize sent.2)) =
        r.players.map (fun player => (player.qconnection,
          some { MsgRoomServerEventEnd.create with
            roomEvent := literal "room_end", roomId := r.roomId }))) := by
  refine ⟨?_, ?_, ?_, ?_, ?_, ?_, ?_⟩
  · intro msg fits base
    exact msg.round_trip tooBig fits base
  · intro msg fits
    exact MsgRoomServerEventPlayers.round_trip_iff tooBig fits (typeStringCrc_lt _) "player-add"
  · intro msg fits
    exact MsgRoomServerEventPlayers.round_trip_iff tooBig fits (typeStringCrc_lt _) "player-remove"
  · intro msg fits
    exact MsgRoomServerEventRoom.round_trip tooBig fits (typeStringCrc_lt _) _
  · intro msg fits
    exact MsgRoomServerEventRoom.round_trip tooBig fits (typeStringCrc_lt _) _
  · intro r fits p
    rw [Room.playerEventTexts_eq, Room.playerEventTexts_eq]
    exact ⟨Room.playerEvents_decoded_iff tooBig fits p (typeStringCrc_lt _) (by decide),
      Room.playerEvents_decoded_iff tooBig fits p (typeStringCrc_lt _) (by decide)⟩
  · intro r fits
    exact ⟨Room.roomEvent_decoded tooBig fits _ true, Room.roomEvent_decoded tooBig fits _ false⟩

/-- A room with one player and the messages about it. -/
theorem room_messages_decoded_iff_single :
    let tooBig : Qstring → Bool := fun _ => false
    let alice : Player := { ptr := 0, qconnection := ⟨1, 0xA11CE⟩, pid := literal "alice" }
    let r : Room := {
      roomClass := .gameRoom, roomId := 7, creationTime := 0, roomConfig := {}
      playermap := (∅ : TreeMap Nat Player).insert 0xA11CE alice }
    let request : MsgRoomMatchRequest := { pid := literal "alice" }
    let added := { MsgRoomServerEventPlayerAdd.create with
      roomId := 7, players := [⟨0xA11CE, true, literal "alice"⟩], self := 0xA11CE }
    let started := { MsgRoomServerEventStart.create with roomId := 7 }
    MessageParser.parse tooBig MsgRoomMatchRequest.deserialize
      (Json.getJsonString request.serialize) = some request ∧
    (MessageParser.parse tooBig MsgRoomServerEventPlayerAdd.deserialize
      (Json.getJsonString (.object (MsgRoomServerEventPlayerAdd.serialize added))) = some added ↔
        [(⟨0xA11CE, true, literal "alice"⟩ : RoomPlayer)] = []) ∧
    MessageParser.parse tooBig MsgRoomServerEventStart.deserialize
      (Json.getJsonString (.object (MsgRoomServerEventStart.serialize started))) = some started ∧
    ((r.playerEventTexts alice true).map (fun sent =>
      (sent.1, MessageParser.parse tooBig MsgRoomServerEventPlayerAdd.deserialize sent.2)) =
      r.players.map (fun player =>
        (player.qconnection,
          some (r.playersEvent alice MsgRoomServerEventPlayerAdd.typeCrc "player-add" player))) ↔
          r.players = []) := by
  intro tooBig alice r request added started
  have config : request.roomConfig.Fits := by constructor <;> decide
  have seated : r.players = [alice] := by decide +kernel
  have room : r.Fits := by
    constructor
    · decide
    · rw [seated]
      decide
    · rw [seated]
      decide
  have alone : (⟨0xA11CE, true, literal "alice"⟩ : RoomPlayer).Fits := ⟨by decide, by decide⟩
  have addedFits : added.Fits MsgRoomServerEventPlayerAdd.typeCrc :=
    { base := ⟨(by decide : 0x7A9B < 2 ^ 16), rfl⟩
      roomEvent := (by decide : Clean (literal "player-add"))
      roomId := by decide, self := by
        decide, players := fun _ inside => List.mem_singleton.mp inside ▸ alone }
  have startedFits : started.Fits MsgRoomServerEventStart.typeCrc :=
    { base := ⟨(by decide : 0x7A9B < 2 ^ 16), rfl⟩,
      roomEvent := (by decide : Clean (literal "room-start")), roomId := by decide }
  obtain ⟨requests, adds, -, starts, -, events, -⟩ := room_messages_decoded_iff tooBig
  exact ⟨requests request ⟨config, by decide, by decide, (by decide : Clean (literal "alice"))⟩
    ⟨by decide, rfl⟩, adds added addedFits, starts started startedFits,
    (events r room alice).1⟩

/-- The players of a room are written and not read. -/
theorem player_add_loses_players :
    let added := { MsgRoomServerEventPlayerAdd.create with
      roomId := 7, players := [⟨0xA11CE, true, literal "alice"⟩], self := 0xA11CE }
    MessageParser.parse (fun _ => false) MsgRoomServerEventPlayerAdd.deserialize
      (Json.getJsonString (.object (MsgRoomServerEventPlayerAdd.serialize added))) ≠
        some added := by
  intro added
  have alone : (⟨0xA11CE, true, literal "alice"⟩ : RoomPlayer).Fits := ⟨by decide, by decide⟩
  have fits : added.Fits MsgRoomServerEventPlayerAdd.typeCrc :=
    { base := ⟨(by decide : 0x7A9B < 2 ^ 16), rfl⟩
      roomEvent := (by decide : Clean (literal "player-add"))
      roomId := by decide, self := by
        decide, players := fun _ inside => List.mem_singleton.mp inside ▸ alone }
  have comesBack :=
    MsgRoomServerEventPlayers.round_trip_iff (fun _ => false) fits (typeStringCrc_lt _) "player-add"
  exact fun read => List.cons_ne_nil _ _ (comesBack.mp read)

end Gearsdk
