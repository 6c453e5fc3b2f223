import Gearsdk.ApiUserGet
import Gearsdk.Javascript.Tasks
import Gearsdk.QhiredisTs
import Gearsdk.Userserver

/-! The paths that the user server of the script answers, each with the calls that it waits for
one after the other. -/
namespace Gearsdk.Userserver
open Javascript Utf16 QhiredisTs

/-! ### What comes from elsewhere -/

inductive MessageClass where
  | rqMsgUserGet | rqMsgPing

/-- The packages of the script and its runtime. -/
structure Host where
  /-- Nothing stands for an error that is thrown. -/
  plainToClass : MessageClass → Value → Option Value
  /-- What `Buffer.from` makes of an array or another object. -/
  bufferOfObject : Value → Option Qstring
  /-- Whether the data of an empty buffer is at no address. -/
  null : Bool
  sha256 : Text → Text
  numberText : Text → Text

/-- The calls of `retry_connection`. -/
structure Retry where
  quit : Reply Unit
  connects : Bool
  config : Reply Unit
  quitAgain : Reply Unit

/-- The result of an update in the database. -/
inductive Upsert where
  | noDriver
  | noCollection
  | rejected
  | updated (modifiedCount upsertedCount matchedCount : Nat)

abbrev Config := Text → Option Text

/-- What the calls come to that a request makes. -/
structure Calls where
  get : Reply (Option Text)
  getRetry : Retry
  set : Reply Unit
  setRetry : Retry
  redis : Commands
  upsert : Upsert
  zkconfig : Option Config
  liveConnectionCount : Nat
  utcDateString : Text
  utcDateNumber : Text

/-- The queries of an update. -/
structure Queries where
  pid : Text
  lastLogin : Text
  lastLoginTimestamp : Text
  userName : Text
  sysName : Value
  nodeName : Value
  arch : Value

inductive Action where
  | get (key : Text)
  | set (key value : Text) (expiryInSec : Option Text)
  | updateOne (queries : Queries)
  | shutdown
  | respond (response : Response)

/-! ### Redis -/

def fails : Reply α → Bool
  | .rejected => true
  | .noClient | .resolved _ => false

/-- None of these promises is waited for but that of the connection. -/
def Retry.unhandled (retry : Retry) : Bool :=
  fails retry.quit || if retry.connects then fails retry.config else fails retry.quitAgain

def retryConnection (retry : Retry) : Task Action Unit :=
  { unhandled := retry.unhandled, settled := .resolved () }

/-- A command with what its method returns. A rejection is caught, and the client is
connected again. -/
def command (reply : Reply α) (retry : Retry) (action : Action) (noClient : β) (resolved : α → β)
    (rejected : β) : Task Action β :=
  match reply with
  | .noClient => pure noClient
  | .resolved value => do
      .act action
      pure (resolved value)
  | .rejected => do
      .act action
      retryConnection retry
      pure rejected

def getValue (calls : Calls) (key : Text) : Task Action (Option Text) :=
  command calls.get calls.getRetry (.get key) none (fun value => value) none

/-- An expiry of zero counts as none. -/
def setValue (calls : Calls) (key value : Text) (expiryInSec : Option Text) : Task Action Nat :=
  command calls.set calls.setRetry (.set key value (expiryInSec.filter fun token =>
    !isZero token)) 2 (fun _ => 0) 1

/-- The promise of a loop after as many rounds. -/
def promise : Paging.Outcome Unit α → Task Action (List α)
  | .running _ _ => { settled := .pending }
  | .ended reported => pure reported
  | .failed () => { settled := .rejected }

/-- The ports of each address in the order in which they come. -/
def addPort (gservers : List (Text × List Value)) (entry : Text × Text × Value) :
    List (Text × List Value) :=
  if gservers.any (·.1 = entry.1) then
    gservers.map fun gserver => if gserver.1 = entry.1 then (gserver.1, gserver.2 ++ [entry.2.2])
      else gserver
  else gservers ++ [(entry.1, [entry.2.2])]

def getgservers (calls : Calls) (rounds : Nat) : Task Action (List (Text × List Value)) := do
  let entries ← promise (QhiredisTs.scan calls.redis (units "gservers") rounds)
  pure (entries.foldl addPort [])

/-! ### Mongo and the configuration -/

/-- `find_and_upsert` with the callbacks that fill in the queries. It throws again what
it catches. -/
def findAndUpsert (calls : Calls) (queries : Task Action Queries) : Task Action (Option Nat) :=
  match calls.upsert with
  | .noDriver => pure none
  | .noCollection => pure (some 1)
  | .rejected => do
      .act (.updateOne (← queries))
      { settled := .rejected }
  | .updated modifiedCount upsertedCount matchedCount => do
      .act (.updateOne (← queries))
      if 0 < modifiedCount ∨ 0 < upsertedCount then pure (some 0)
      else if 0 < matchedCount ∧ modifiedCount = 0 then pure (some 0)
      else pure (some 1)

def getInt32 (configs : Config) (key : Text) (defaultValue : Text) : Text :=
  match configs key with
  | none | some [] => defaultValue
  | some value => (parseInt value).getD defaultValue

def getString (configs : Config) (key defaultValue : Text) : Text := (configs key).getD defaultValue

/-! ### The paths -/

/-- `Buffer.from` of a value. -/
def Host.bufferFrom (host : Host) : Value → Option Qstring
  | .string text => some (utf8 text)
  | .array elements => host.bufferOfObject (.array elements)
  | .object members => host.bufferOfObject (.object members)
  | .undefined | .null | .bool _ | .number _ => none

def Host.data (host : Host) (bytes : Qstring) : Option Qstring :=
  if host.null ∧ bytes = [] then none else some bytes

def deviceField (userGetMsgRq : Value) (name : String) : Task Action Value := do
  let device ← .ofOption (userGetMsgRq.get "device")
  .ofOption (device.get name)

def addField (host : Host) (userGetMsgRq : Value) (crc : Nat) (name : String) : Task Action Nat :=
  do
  let field ← deviceField userGetMsgRq name
  let bytes ← .ofOption (host.bufferFrom field)
  pure (ApiUserGet.TypeScript.napiModCrc32 crc (host.data bytes))

def deviceCrc (host : Host) (userGetMsgRq : Value) : Task Action Nat := do
  let crc := ApiUserGet.TypeScript.napiModCrc32 0 (host.data [])
  let crc ← addField host userGetMsgRq crc "sys_name"
  let crc ← addField host userGetMsgRq crc "node_name"
  let crc ← addField host userGetMsgRq crc "release"
  addField host userGetMsgRq crc "arch"

structure ResMsgUserGet where
  pid : Text := []
  roomList : Value := .null
  lastLogin : Text := []
  userName : Text := []
  token : Text := []
  gservers : Value := .null

def ResMsgUserGet.toValue (message : ResMsgUserGet) : Value :=
  .object [(units "pid", .string message.pid), (units "room_list", message.roomList),
    (units "last_login", .string message.lastLogin), (units "user_name", .string message.userName),
    (units "token", .string message.token), (units "gservers", message.gservers)]

def gserversValue (gservers : List (Text × List Value)) : Value :=
  .array (gservers.map fun gserver => .object [(units "addr", .string gserver.1),
    (units "ports", .array gserver.2)])

/-- The response of a player whose device has a checksum. -/
def answerOf (crc : Nat) (calls : Calls) : ResMsgUserGet :=
  let pid := units (String.ofList (Nat.toDigits 16 crc))
  { pid, userName := units "guest-" ++ pid, lastLogin := calls.utcDateString }

def upsertQueries (calls : Calls) (userGetMsgRq : Value) (response : ResMsgUserGet) :
    Task Action Queries := do
  let sysName ← deviceField userGetMsgRq "sys_name"
  let nodeName ← deviceField userGetMsgRq "node_name"
  let arch ← deviceField userGetMsgRq "arch"
  pure { pid := response.pid, lastLogin := response.lastLogin, lastLoginTimestamp := calls.utcDateNumber,
         userName := response.userName, sysName, nodeName, arch }

/-- A stored token that is not empty is kept. -/
def tokenOf (host : Host) (message : ResMsgUserGet) : Option Text → Text
  | some (unit :: rest) => unit :: rest
  | none | some [] => host.sha256 ((stringify host.numberText message.toValue).getD [])

def userTokenExpiryTime (calls : Calls) : Option Text :=
  calls.zkconfig.map fun configs =>
    getInt32 configs (units "server_config/user_token_expiry_time") (units "300")

/-- The text of the room configuration is parsed without a check; that of no configuration is
undefined, which is no JSON. -/
def roomList (calls : Calls) : Option Value :=
  calls.zkconfig.bind fun configs => parse (getString configs (units "gserver/roomconfig") [])

def parseUserGet (host : Host) (calls : Calls) (rounds : Nat) (buffer : Text) :
    Task Action (Option Text) := do
  let plain ← .ofOption (parse buffer)
  let userGetMsgRq ← .ofOption (host.plainToClass .rqMsgUserGet plain)
  let crc ← deviceCrc host userGetMsgRq
  let response := answerOf crc calls
  let redisFormatPid := units "tokens:" ++ response.pid
  let tokenInRedis ← getValue calls redisFormatPid
  let response := { response with token := tokenOf host response tokenInRedis }
  let _ ← setValue calls redisFormatPid response.token (userTokenExpiryTime calls)
  let gservers ← getgservers calls rounds
  let response := { response with gservers := gserversValue gservers }
  let queryResult ← findAndUpsert calls (upsertQueries calls userGetMsgRq response)
  if queryResult = some 0 then do
    let roomList ← .ofOption (roomList calls)
    pure (stringify host.numberText { response with roomList }.toValue)
  else pure (some emptyObject)

def parsePing (host : Host) (buffer : Text) : Task Action (Option Text) := do
  let plain ← .ofOption (parse buffer)
  let pingRq ← .ofOption (host.plainToClass .rqMsgPing plain)
  let msg ← .ofOption (pingRq.get "msg")
  pure (stringify host.numberText (.object [(units "pong", .string (units "qh3pluginserver")),
    (units "msg", msg)]))

def parseWhoami (host : Host) (calls : Calls) : Task Action (Option Text) :=
  pure (stringify host.numberText (.object [(units "name", .string (units "qh3pluginserver")),
    (units "active_connections", .number (decimal calls.liveConnectionCount))]))

def parseShutdownTest (host : Host) : Task Action (Option Text) := do
  .act .shutdown
  pure (stringify host.numberText (.object [(units "server", .string (units "qh3pluginserver")),
    (units "msg", .string (units "shutdown-ack"))]))

/-! ### The server -/

inductive Api where
  | whoami | ping | userGet | shutdownTest

def Api.getPath : Api → Text
  | .whoami => units "/whoami"
  | .ping => units "/ping"
  | .userGet => units "/user_get"
  | .shutdownTest => units "/shutdown_test"

/-- In the order in which `start_userserver` registers them. -/
def apiCallbacks : List Api := [.whoami, .ping, .userGet, .shutdownTest]

def Api.callback (host : Host) (calls : Calls) (rounds : Nat) (buffer : Text) :
    Api → Task Action (Option Text)
  | .whoami => parseWhoami host calls
  | .ping => parsePing host buffer
  | .userGet => parseUserGet host calls rounds buffer
  | .shutdownTest => parseShutdownTest host

def callbackResult (host : Host) (calls : Calls) (rounds : Nat) (path buffer : Text) :
    Task Action (Option Text) :=
  match apiCallbacks.find? (·.getPath = path) with
  | some api => api.callback host calls rounds buffer
  | none => pure none

def processRequest (host : Host) (calls : Calls) (rounds : Nat) (cid : Qstring)
    (path buffer : Text) : Task Action Unit := do
  let result ← callbackResult host calls rounds path buffer
  .act (.respond (Response.ofResult cid result))

/-- `on_server_parse` does not wait for the promise. -/
def onServerParse (host : Host) (calls : Calls) (rounds : Nat) (cid : Qstring)
    (path buffer : Text) : Task Action Unit :=
  (processRequest host calls rounds cid path buffer).detached

end Gearsdk.Userserver
