import Gearsdk.Authentication
import Gearsdk.Message.User
import Gearsdk.Qh3server

/-! The sample server and the command server: what each of them does with a
request that has been received completely. An assertion that fails or a null
pointer that is followed ends the server. -/
namespace Gearsdk
open Std Qstring

namespace Http3Server

inductive Fault where
  | assertFailed
  | nullDereference
  deriving DecidableEq

/-- What a handler does besides filling the response. -/
inductive Action where
  | setValue (key value : Qstring)
  | findAndUpsert (pid userName lastLogin sysName nodeName arch : Qstring)
  | sendShutdownToAll
  | evBreak
  deriving DecidableEq

abbrev Handled := Except Fault (ConnIoReqRes × List Action)

/-- `assert`, which a build with `NDEBUG` leaves out. -/
def assertThat (ndebug condition : Bool) : Except Fault Unit :=
  if ndebug || condition then .ok () else .error .assertFailed

/-- Requests of a browser have no checksum. -/
def assertCrc (ndebug : Bool) (request : ConnIoReqRes) : Except Fault Unit :=
  if request.hasCrcHeader then assertThat ndebug request.validate else .ok ()

/-! ### The Redis client -/

/-- What a command gets: nothing where the connection is lost, or an array of the
form that the command answers with, or something else. -/
inductive RedisReply (α : Type) where
  | null
  | array (elements : α)
  | other
  deriving DecidableEq

abbrev Fields := List (Qstring × Qstring)

/-- The loop of `iterate_hash`, with the replies to its commands: the next cursor,
and fields with their values. A reply of another form ends it and has its text
printed. -/
def hscan : List (RedisReply (Nat × Fields)) → Except Fault Fields
  | [] => .ok []
  | .null :: _ => .error .nullDereference
  | .other :: _ => .ok []
  | .array (cursor, fields) :: replies =>
      if cursor = 0 then .ok fields
      else do
        let later ← hscan replies
        return fields ++ later

def iterateHash (context : Bool) (replies : List (RedisReply (Nat × Fields))) :
    Except Fault Fields :=
  if context then hscan replies else .ok []

def hgetall : RedisReply Fields → Except Fault Fields
  | .null => .error .nullDereference
  | .array fields => .ok fields
  | .other => .ok []

/-- The hashes at the keys of one reply, each read with a command of its own. -/
def hgetallKeys :
    List (Qstring × RedisReply Fields) → Except Fault (List (Qstring × Qstring × Qstring))
  | [] => .ok []
  | (key, reply) :: keys => do
      let fields ← hgetall reply
      let later ← hgetallKeys keys
      return fields.map (fun field => (key, field.1, field.2)) ++ later

/-- The loop of `scan`. A reply of another form leaves the cursor as it was. -/
def scanFrom (cursor : Nat) : List (RedisReply (Nat × List (Qstring × RedisReply Fields))) →
    Except Fault (List (Qstring × Qstring × Qstring))
  | [] => .ok []
  | .null :: _ => .error .nullDereference
  | .other :: replies => if cursor = 0 then .ok [] else scanFrom cursor replies
  | .array (next, keys) :: replies => do
      let here ← hgetallKeys keys
      if next = 0 then return here
      else
        let later ← scanFrom next replies
        return here ++ later

def scan (context : Bool) (replies : List (RedisReply (Nat × List (Qstring × RedisReply Fields)))) :
    Except Fault (List (Qstring × Qstring × Qstring)) :=
  if context then scanFrom 0 replies else .ok []

end Http3Server

/-- The copy constructor, by way of the text of the list. -/
def MsgRoomConfigList.copy (tooBig : Qstring → Bool) (list : MsgRoomConfigList) :
    MsgRoomConfigList :=
  (MessageParser.parse tooBig MsgRoomConfigList.deserialize (Json.getJsonString list.serialize)).getD {}

/-- The bytes of an `unsigned long` in memory. -/
def unsignedLongBytes (value : Nat) : Qstring :=
  (List.range 8).map fun i => UInt8.ofNat (value >>> (8 * i))

/-- A sample server with the services that it asks: what Redis answers, whether the
user is stored, the BSON library, the reader of numbers, the clock and the hash
function. -/
structure Http3SampleServer where
  ndebug : Bool := false
  roomConfigList : Option MsgRoomConfigList := none
  liveConnectionCount : Nat := 0
  context : Bool := true
  getValue : Qstring → Authentication.Reply
  scanReplies :
    List (Http3Server.RedisReply (Nat × List (Qstring × Http3Server.RedisReply Http3Server.Fields))) := []
  upserted : Bool := true
  bson : Authentication.Bson
  tooBig : Qstring → Bool
  timeUtcReadable : Qstring
  sha256 : Qstring → Qstring

namespace Http3SampleServer
open Http3Server

variable (s : Http3SampleServer) (request response : ConnIoReqRes)

def parsePing : Handled := do
  assertCrc s.ndebug request
  return (response.setPayload (literal "\x7b\"pong\" : \"http3_sample_server\"\x7d"), [])

def parseShutdownTest : Handled := do
  assertCrc s.ndebug request
  return (response, [.evBreak])

def parseWhoami : Handled := do
  assertCrc s.ndebug request
  return (response.setPayload
    (literal "\x7b\"name\" : \"http3_sample_server\", \"active_connections\" : " ++
      decimal s.liveConnectionCount ++ literal "\x7d"), [])

def getGservers : Except Fault ResMsgGservers := do
  let entries ← scan s.context s.scanReplies
  return ⟨entries.foldl (fun gservers entry =>
    ResMsgGservers.pushBack gservers (cString entry.1) (cString entry.2.2)) ∅⟩

def parseUserGet : Handled := do
  assertThat s.ndebug request.validate
  match MessageParser.parse s.tooBig RqMsgUserGet.deserialize request.data with
  | none => return (response, [])
  | some userGetMsgRq =>
      let crc := Crc32.continued 0 userGetMsgRq.sysName
      let crc := Crc32.continued crc userGetMsgRq.nodeName
      let crc := Crc32.continued crc userGetMsgRq.release
      let crc := Crc32.continued crc userGetMsgRq.arch
      let pid := hexadecimal crc
      let userName := literal "guest-" ++ hexadecimal crc
      let lastLogin := s.timeUtcReadable
      let key := Authentication.tokenKey pid
      let tokenInRedis := (Authentication.getValue (s.getValue key) []).2
      let token :=
        if tokenInRedis.length ≠ 0 then tokenInRedis
        else s.sha256 (unsignedLongBytes crc ++ lastLogin)
      let response := (response.addOrGetHeader (literal "token") token).1
      let gservers ← s.getGservers
      let actions : List Action := [.setValue key token,
        .findAndUpsert pid userName lastLogin userGetMsgRq.sysName userGetMsgRq.nodeName userGetMsgRq.arch]
      if s.upserted then
        match s.roomConfigList with
        | none => .error .nullDereference
        | some roomConfigList =>
            let roomList := roomConfigList.copy s.tooBig
            let msg : ResMsgUserGet :=
              { pid, userName, lastLogin, token, gservers, roomList := some roomList }
            return (response.setPayload (Json.getJsonString (.object msg.serialize)), actions)
      else return (response, actions)

/-- The result of the token check; the rest of `user_details` is for a test build. -/
def parseUserDetails : Handled :=
  match Authentication.validateToken s.ndebug s.bson s.getValue request with
  | none => .error .assertFailed
  | some _ => .ok (response, [])

def parseGetGservers : Handled :=
  match Authentication.validateToken s.ndebug s.bson s.getValue request with
  | none => .error .assertFailed
  | some result =>
      if result ≠ 0 then .ok (response, [])
      else do
        let gservers ← s.getGservers
        return (response.setPayload (Json.getJsonString gservers.serialize), [])

def parse : Handled :=
  match request.getHeader (literal ":path") with
  | none => .ok (response, [])
  | some pathHeader =>
      let path := pathHeader.value
      if path.length ≤ 1 then .ok (response, [])
      else if Qstring.compare path (literal "/shutdown_test") = 0 then
        s.parseShutdownTest request response
      else if Qstring.compare path (literal "/whoami") = 0 then s.parseWhoami request response
      else if Qstring.compare path (literal "/user_get") = 0 then s.parseUserGet request response
      else if Qstring.compare path (literal "/user_details") = 0 then
        s.parseUserDetails request response
      else if Qstring.compare path (literal "/get_gservers") = 0 then
        s.parseGetGservers request response
      else if Qstring.compare path (literal "/ping") = 0 then s.parsePing request response
      else .ok (response, [])

end Http3SampleServer

/-- A command server with its process id and what Redis answers to the two loops of
`construct_response_whoami`. -/
structure Http3CommandServer where
  ndebug : Bool := false
  pid : Int
  context : Bool := true
  servers : List (Http3Server.RedisReply (Nat × Http3Server.Fields)) := []
  gservers : List (Http3Server.RedisReply (Nat × Http3Server.Fields)) := []

namespace Http3CommandServer
open Http3Server

variable (s : Http3CommandServer) (request response : ConnIoReqRes)

def parseShutdownCommandCenter : Handled := do
  assertCrc s.ndebug request
  return (response, [.evBreak])

def parseShutdownTest : Handled := do
  assertCrc s.ndebug request
  return (response.setPayload (literal "\x7b " ++ decimal s.pid ++ literal "-shutdown-all \x7d"),
    [.sendShutdownToAll])

def constructResponseWhoami : Except Fault Qstring := do
  let serverId := decimal s.pid ++ literal "-http3_command_server"
  let servers ← iterateHash s.context s.servers
  let gservers ← iterateHash s.context s.gservers
  let objects : Fields → Json := fun fields =>
    .array (fields.map fun field => .object [(cString field.1, .string (cString field.2))])
  return Json.getJsonString (.object
    [(literal "name", .string serverId), (literal "servers", objects servers),
      (literal "gservers", objects gservers)])

def parseWhoami : Handled := do
  assertCrc s.ndebug request
  let payload ← s.constructResponseWhoami
  return (response.setPayload payload, [])

/-- The first comparison does not exclude the others. -/
def parse : Handled :=
  match request.getHeader (literal ":path") with
  | none => .ok (response, [])
  | some pathHeader =>
      let path := pathHeader.value
      if path.length ≤ 1 then .ok (response, [])
      else do
        let (response, first) ←
          if Qstring.compare path (literal "/shutdown_test") = 0 then
            s.parseShutdownTest request response
          else .ok (response, [])
        let (response, second) ←
          if Qstring.compare path (literal "/shutdown_cmd_center") = 0 then
            s.parseShutdownCommandCenter request response
          else if Qstring.compare path (literal "/whoami") = 0 then s.parseWhoami request response
          else .ok (response, [])
        return (response, first ++ second)

end Http3CommandServer

inductive Http3Server where
  | sample (server : Http3SampleServer)
  | command (server : Http3CommandServer)

namespace Http3Server

def parse : Http3Server → ConnIoReqRes → ConnIoReqRes → Handled
  | .sample s, request, response => s.parse request response
  | .command s, request, response => s.parse request response

/-- A request as it is polled. -/
structure Request where
  streamId : Int
  headers : List (Qstring × Qstring)
  data : List (List Qstring)

/-- A request is received on a connection, handled, and answered with the response
record as the handler leaves it. -/
def dispatch (server : Http3Server) (alternateProtocol : Qstring) (conn : ConnIoQh3)
    (request : Request) (window : Nat) : Except Fault (ConnIoQh3 × List Action × List H3Write) := do
  let conn := conn.receive request.streamId (.headers request.headers)
  let conn := request.data.foldl (fun conn reads => conn.receive request.streamId (.data reads)) conn
  let conn := conn.receive request.streamId .finished
  let (httpResponse, actions) ← server.parse conn.httpRequest conn.httpResponse
  let (conn, writes) :=
    ({ conn with httpResponse } : ConnIoQh3).sendResponse alternateProtocol window
  return (conn, actions, writes)

end Http3Server
end Gearsdk
