import Gearsdk.Userserver.Apis

/-! Every request is to be answered once, on its own connection, and no promise is to be rejected
that nobody waits for. -/
namespace Gearsdk.Userserver
open Javascript Utf16 QhiredisTs

def Action.response? : Action → Option Response
  | .respond response => some response
  | .get _ | .set _ _ _ | .updateOne _ | .shutdown => none

/-- The request has one response, and nothing is left that is rejected. -/
def Answered (host : Host) (calls : Calls) (cid : Qstring) (path buffer : Text) : Prop :=
  ∃ rounds response,
    (onServerParse host calls rounds cid path buffer).actions.filterMap Action.response? =
    [response] ∧
    response.cid = cid ∧ (onServerParse host calls rounds cid path buffer).unhandled = false

/-- A rejected command leads to no other rejection. -/
def Recovers (reply : Reply α) (retry : Retry) : Prop :=
  fails reply = true → retry.unhandled = false

/-- A field of the device that has bytes. -/
def HasField (host : Host) (userGetMsgRq : Value) (name : String) : Prop :=
  ∃ device, userGetMsgRq.get "device" = some device ∧ ∃ field, device.get name = some field ∧
    ∃ bytes, host.bufferFrom field = some bytes

/-- The body is the JSON of a message whose device has its four fields. -/
def HasDevice (host : Host) (buffer : Text) : Prop :=
  ∃ plain, parse buffer = some plain ∧ ∃ userGetMsgRq, host.plainToClass .rqMsgUserGet plain =
    some userGetMsgRq ∧
    ∀ name ∈ ["sys_name", "node_name", "release", "arch"], HasField host userGetMsgRq name

def Upserted (upsert : Upsert) : Prop :=
  ∃ modifiedCount upsertedCount matchedCount, upsert = .updated modifiedCount upsertedCount matchedCount ∧
    (0 < modifiedCount ∨ 0 < upsertedCount ∨ 0 < matchedCount)

/-- What a request for a player asks of its calls. -/
structure CallsServed (calls : Calls) (rounds : Nat) : Prop where
  get : Recovers calls.get calls.getRetry
  set : Recovers calls.set calls.setRetry
  scan : ∃ reported, QhiredisTs.scan calls.redis (units "gservers") rounds = .ended reported
  upsert : calls.upsert ≠ .rejected
  room : Upserted calls.upsert → ∃ value, roomList calls = some value

/-- The body is the JSON of a message that is neither null nor undefined. -/
def PingServed (host : Host) (buffer : Text) : Prop :=
  ∃ plain, parse buffer = some plain ∧ ∃ pingRq, host.plainToClass .rqMsgPing plain = some pingRq ∧
    ∃ msg, pingRq.get "msg" = some msg

structure Served (host : Host) (calls : Calls) (path buffer : Text) : Prop where
  ping : path = units "/ping" → PingServed host buffer
  userGet : path = units "/user_get" → HasDevice host buffer ∧ ∃ rounds, CallsServed calls rounds

section
variable {host : Host} {calls : Calls} {rounds : Nat}

/-! ### Redis and Mongo -/

theorem retryConnection_safe_iff (retry : Retry) :
    (retryConnection retry).Safe ↔ retry.unhandled = false :=
  ⟨fun ⟨_, _, quiet⟩ => quiet, fun quiet => ⟨(), rfl, quiet⟩⟩

theorem recovers_rejected (retry : Retry) :
    Recovers (.rejected : Reply α) retry ↔ retry.unhandled = false :=
  ⟨fun recovers => recovers rfl, fun quiet _ => quiet⟩

theorem recovers_of_passes (passes : fails reply = false) (retry : Retry) :
    Recovers reply retry := by
  intro failed
  rw [passes] at failed
  cases failed

theorem command_safe_iff (reply : Reply α) (retry : Retry) (action : Action) (noClient : β)
    (resolved : α → β) (rejected : β) :
    (command reply retry action noClient resolved rejected).Safe ↔ Recovers reply retry := by
  cases reply with
  | noClient => exact iff_of_true (Task.pure_safe _) (recovers_of_passes rfl retry)
  | resolved value =>
    exact iff_of_true ((Task.act_bind_safe_iff ..).mpr (Task.pure_safe _)) (recovers_of_passes rfl retry)
  | rejected =>
    rw [command, Task.act_bind_safe_iff, Task.bind_pure_safe_iff, retryConnection_safe_iff,
      recovers_rejected]

theorem getgservers_safe_iff : (getgservers calls rounds).Safe ↔
    ∃ reported, QhiredisTs.scan calls.redis (units "gservers") rounds = .ended reported := by
  rw [getgservers, Task.bind_pure_safe_iff]
  cases QhiredisTs.scan calls.redis (units "gservers") rounds with
  | running cursor reported => exact iff_of_false (by rintro ⟨_, ⟨⟩, _⟩) (by rintro ⟨_, ⟨⟩⟩)
  | ended reported => exact iff_of_true (Task.pure_safe reported) ⟨reported, rfl⟩
  | failed fault => exact iff_of_false (by rintro ⟨_, ⟨⟩, _⟩) (by rintro ⟨_, ⟨⟩⟩)

theorem not_safe_of_rejected (actions : List Action) (unhandled : Bool) :
    ¬ (⟨actions, unhandled, .rejected⟩ : Task Action α).Safe := by
  rintro ⟨_, ⟨⟩, _⟩

/-- The result tells whether there has been an update. -/
theorem upsert_safe_iff {queries : Task Action Queries} (safe : queries.Safe)
    (later other : Task Action β) (fine : other.Safe) :
    (findAndUpsert calls queries >>= fun queryResult =>
      if queryResult = some 0 then later else other).Safe ↔
      calls.upsert ≠ .rejected ∧ (Upserted calls.upsert → later.Safe) := by
  rw [findAndUpsert]
  cases calls.upsert with
  | noDriver =>
    refine iff_of_true fine ⟨by rintro ⟨⟩, ?_⟩
    rintro ⟨_, _, _, ⟨⟩, _⟩
  | noCollection =>
    refine iff_of_true fine ⟨by rintro ⟨⟩, ?_⟩
    rintro ⟨_, _, _, ⟨⟩, _⟩
  | rejected =>
    refine iff_of_false ?_ fun holds => holds.1 rfl
    rw [Task.bind_assoc, Task.bind_safe_iff]
    rintro ⟨action, _, rejects⟩
    rw [Task.bind_assoc, Task.act_bind_safe_iff] at rejects
    exact not_safe_of_rejected [] false rejects
  | updated modifiedCount upsertedCount matchedCount =>
    have counted : Upserted (.updated modifiedCount upsertedCount matchedCount) ↔
        0 < modifiedCount ∨ 0 < upsertedCount ∨ 0 < matchedCount := by
      constructor
      · rintro ⟨_, _, _, ⟨⟩, some_count⟩
        exact some_count
      · exact fun some_count => ⟨_, _, _, rfl, some_count⟩
    rw [Task.bind_assoc,
      Task.bind_safe_of_uniform
        (P := Upserted (.updated modifiedCount upsertedCount matchedCount) → later.Safe)
      fun action _ => ?_]
    · exact and_congr_left fun _ => iff_of_true safe (by rintro ⟨⟩)
    · rw [Task.bind_assoc, Task.act_bind_safe_iff, counted]
      by_cases changed : 0 < modifiedCount ∨ 0 < upsertedCount
      · rw [if_pos changed]
        exact ⟨fun safe _ => safe, fun safe => safe (changed.imp_right .inl)⟩
      · rw [if_neg changed]
        by_cases matched : 0 < matchedCount ∧ modifiedCount = 0
        · rw [if_pos matched]
          exact ⟨fun safe _ => safe, fun safe => safe (.inr (.inr matched.1))⟩
        · rw [if_neg matched]
          exact iff_of_true fine fun counts => by omega

/-! ### The device -/

theorem deviceField_bind_safe_iff (userGetMsgRq : Value) (name : String)
    (next : Value → Task Action β) :
    (deviceField userGetMsgRq name >>= next).Safe ↔
      ∃ device, userGetMsgRq.get "device" = some device ∧ ∃ field, device.get name = some field ∧
        (next field).Safe := by
  rw [deviceField, Task.bind_assoc, Task.ofOption_bind_safe_iff]
  simp only [Task.ofOption_bind_safe_iff]

theorem addField_safe_iff (userGetMsgRq : Value) (crc : Nat) (name : String) :
    (addField host userGetMsgRq crc name).Safe ↔ HasField host userGetMsgRq name := by
  rw [addField, deviceField_bind_safe_iff]
  simp only [Task.bind_pure_safe_iff, Task.ofOption_safe_iff, HasField]

theorem deviceCrc_safe_iff (userGetMsgRq : Value) : (deviceCrc host userGetMsgRq).Safe ↔
    ∀ name ∈ ["sys_name", "node_name", "release", "arch"], HasField host userGetMsgRq name := by
  have release (crc : Nat) : (addField host userGetMsgRq crc "release" >>= fun crc =>
      addField host userGetMsgRq crc "arch").Safe ↔
        HasField host userGetMsgRq "release" ∧ HasField host userGetMsgRq "arch" := by
    rw [Task.bind_safe_of_uniform fun crc _ => addField_safe_iff userGetMsgRq crc "arch",
      addField_safe_iff]
  have nodeName (crc : Nat) : (addField host userGetMsgRq crc "node_name" >>= fun crc =>
      addField host userGetMsgRq crc "release" >>= fun crc =>
        addField host userGetMsgRq crc "arch").Safe ↔
        HasField host userGetMsgRq "node_name" ∧ HasField host userGetMsgRq "release" ∧
          HasField host userGetMsgRq "arch" := by
    rw [Task.bind_safe_of_uniform fun crc _ => release crc, addField_safe_iff]
  rw [deviceCrc, Task.bind_safe_of_uniform fun crc _ => nodeName crc, addField_safe_iff]
  simp only [List.forall_mem_cons, List.not_mem_nil, false_imp_iff, implies_true, and_true]

/-- What has been read once is there again. -/
theorem upsertQueries_safe
    (fields : ∀ name ∈ ["sys_name", "node_name", "release", "arch"],
      HasField host userGetMsgRq name)
    (response : ResMsgUserGet) :
    (upsertQueries calls userGetMsgRq response).Safe := by
  have read (name : String) (inside : name ∈ ["sys_name", "node_name", "release",
    "arch"]) {next : Value → Task Action Queries}
      (safe : ∀ field, (next field).Safe) : (deviceField userGetMsgRq name >>= next).Safe := by
    obtain ⟨device, there, field, found, _⟩ := fields name inside
    exact (deviceField_bind_safe_iff ..).mpr ⟨device, there, field, found, safe field⟩
  refine read "sys_name" (by simp) fun sysName => read "node_name" (by simp) fun nodeName => ?_
  exact read "arch" (by simp) fun arch => Task.pure_safe _

/-! ### The paths -/

theorem callsServed_iff :
    CallsServed calls rounds ↔ Recovers calls.get calls.getRetry ∧
      Recovers calls.set calls.setRetry ∧
      (∃ reported, QhiredisTs.scan calls.redis (units "gservers") rounds = .ended reported) ∧
      calls.upsert ≠ .rejected ∧ (Upserted calls.upsert → ∃ value, roomList calls = some value) :=
  ⟨fun served => ⟨served.get, served.set, served.scan, served.upsert, served.room⟩,
    fun ⟨get, set, scan, upsert, room⟩ => ⟨get, set, scan, upsert, room⟩⟩

theorem parseUserGet_safe_iff (buffer : Text) :
    (parseUserGet host calls rounds buffer).Safe ↔ HasDevice host buffer ∧
      CallsServed calls rounds := by
  have message (userGetMsgRq : Value) {next : Nat → Task Action (Option Text)}
      (served : (∀ name ∈ ["sys_name", "node_name", "release", "arch"], HasField host userGetMsgRq name) →
        ∀ crc, (next crc).Safe ↔
          CallsServed calls rounds) : (deviceCrc host userGetMsgRq >>= next).Safe ↔
      (∀ name ∈ ["sys_name", "node_name", "release", "arch"], HasField host userGetMsgRq name) ∧
        CallsServed calls rounds := by
    rw [← deviceCrc_safe_iff]
    exact Task.bind_safe_of_uniform fun crc resolves =>
      served ((deviceCrc_safe_iff userGetMsgRq).mp ⟨crc, resolves⟩) crc
  have body : HasDevice host buffer ∧ CallsServed calls rounds ↔
    ∃ plain, parse buffer = some plain ∧
      ∃ userGetMsgRq, host.plainToClass .rqMsgUserGet plain = some userGetMsgRq ∧
        (∀ name ∈ ["sys_name", "node_name", "release", "arch"], HasField host userGetMsgRq name) ∧
          CallsServed calls rounds := by
    simp only [HasDevice, ← exists_and_right, and_assoc]
  rw [parseUserGet, Task.ofOption_bind_safe_iff, body]
  refine exists_congr fun plain => and_congr_right fun _ => ?_
  rw [Task.ofOption_bind_safe_iff]
  refine exists_congr fun userGetMsgRq => and_congr_right fun _ => message userGetMsgRq
    fun fields crc => ?_
  rw [callsServed_iff]
  refine (Task.bind_safe_of_uniform fun tokenInRedis _ => ?_).trans
    (and_congr_left fun _ => command_safe_iff ..)
  refine (Task.bind_safe_of_uniform fun _ _ => ?_).trans
    (and_congr_left fun _ => command_safe_iff ..)
  refine (Task.bind_safe_of_uniform fun gservers _ => ?_).trans
    (and_congr_left fun _ => getgservers_safe_iff)
  refine (upsert_safe_iff (upsertQueries_safe fields _) _ _ (Task.pure_safe _)).trans ?_
  rw [Task.bind_pure_safe_iff, Task.ofOption_safe_iff]

theorem parsePing_safe_iff (buffer : Text) :
    (parsePing host buffer).Safe ↔ PingServed host buffer := by
  rw [parsePing, Task.ofOption_bind_safe_iff]
  simp only [Task.ofOption_bind_safe_iff, Task.bind_pure_safe_iff, Task.ofOption_safe_iff,
    PingServed]

/-- The callback of a path, whichever it is. -/
theorem callbackResult_safe_iff (path buffer : Text) :
    (∃ rounds, (callbackResult host calls rounds path buffer).Safe) ↔
      Served host calls path buffer := by
  have other : units "/ping" ≠ units "/user_get" := by decide
  by_cases ping : path = units "/ping"
  · subst ping
    have callback (rounds : Nat) : callbackResult host calls rounds (units "/ping") buffer =
      parsePing host buffer := rfl
    simp only [callback, parsePing_safe_iff, exists_const]
    exact ⟨fun served => ⟨fun _ => served, fun same => absurd same other⟩,
      fun served => served.ping rfl⟩
  · by_cases userGet : path = units "/user_get"
    · subst userGet
      have callback (rounds : Nat) : callbackResult host calls rounds (units "/user_get") buffer =
          parseUserGet host calls rounds buffer := rfl
      simp only [callback, parseUserGet_safe_iff, exists_and_left]
      exact ⟨fun served => ⟨fun same => absurd same.symm other, fun _ => served⟩,
        fun served => served.userGet rfl⟩
    · refine iff_of_true ⟨0, ?_⟩ ⟨fun same => absurd same ping, fun same => absurd same userGet⟩
      rw [callbackResult]
      cases found : apiCallbacks.find? (·.getPath = path) with
      | none => exact Task.pure_safe none
      | some api =>
        have same : api.getPath = path := by simpa using List.find?_some found
        cases api with
        | whoami => exact Task.pure_safe _
        | ping => exact absurd same.symm ping
        | userGet => exact absurd same.symm userGet
        | shutdownTest => exact (Task.act_bind_safe_iff ..).mpr (Task.pure_safe _)

/-! ### Responses -/

theorem silent_act (action : Action) (silent : action.response? = none) :
    (Task.act action).Silent Action.response? := List.filterMap_cons_none silent

theorem silent_retryConnection (retry : Retry) : (retryConnection retry).Silent Action.response? :=
  rfl

theorem silent_deviceField (userGetMsgRq : Value) (name : String) :
    (deviceField userGetMsgRq name).Silent Action.response? :=
  (Task.silent_ofOption ..).bind fun _ => Task.silent_ofOption ..

theorem silent_addField (userGetMsgRq : Value) (crc : Nat) (name : String) :
    (addField host userGetMsgRq crc name).Silent Action.response? :=
  (silent_deviceField ..).bind fun _ => (Task.silent_ofOption ..).bind fun _ => Task.silent_pure ..

theorem silent_command (reply : Reply α) (retry : Retry) (noClient : β) (resolved : α → β)
    (rejected : β) (silent : action.response? = none) :
    (command reply retry action noClient resolved rejected).Silent Action.response? := by
  cases reply with
  | noClient => exact Task.silent_pure ..
  | resolved value => exact (silent_act _ silent).bind fun _ => Task.silent_pure ..
  | rejected => exact (silent_act _ silent).bind fun _ => (silent_retryConnection _).bind fun _ =>
    Task.silent_pure ..

theorem silent_getgservers : (getgservers calls rounds).Silent Action.response? := by
  refine Task.Silent.bind ?_ fun _ => Task.silent_pure ..
  cases QhiredisTs.scan calls.redis (units "gservers") rounds with
  | running cursor reported => rfl
  | ended reported => rfl
  | failed fault => rfl

theorem silent_upsertQueries (userGetMsgRq : Value) (response : ResMsgUserGet) :
    (upsertQueries calls userGetMsgRq response).Silent Action.response? :=
  (silent_deviceField ..).bind fun _ => (silent_deviceField ..).bind fun _ =>
    (silent_deviceField ..).bind fun _ =>
    Task.silent_pure ..

theorem silent_findAndUpsert {queries : Task Action Queries}
    (silent : queries.Silent Action.response?) :
    (findAndUpsert calls queries).Silent Action.response? := by
  rw [findAndUpsert]
  cases calls.upsert with
  | noDriver => exact Task.silent_pure ..
  | noCollection => exact Task.silent_pure ..
  | rejected => exact silent.bind fun _ => (silent_act _ rfl).bind fun _ => rfl
  | updated modifiedCount upsertedCount matchedCount =>
    refine silent.bind fun _ => (silent_act _ rfl).bind fun _ => ?_
    split
    · exact Task.silent_pure ..
    · split
      · exact Task.silent_pure ..
      · exact Task.silent_pure ..

theorem silent_parseUserGet (buffer : Text) :
    (parseUserGet host calls rounds buffer).Silent Action.response? := by
  have fields (userGetMsgRq : Value) : (deviceCrc host userGetMsgRq).Silent Action.response? :=
    (silent_addField ..).bind fun _ => (silent_addField ..).bind fun _ => (silent_addField ..).bind
      fun _ => silent_addField ..
  refine (Task.silent_ofOption ..).bind fun _ => (Task.silent_ofOption ..).bind
    fun userGetMsgRq => ?_
  refine (fields userGetMsgRq).bind fun _ => (silent_command _ _ _ _ _ rfl).bind fun _ =>
    (silent_command _ _ _ _ _ rfl).bind fun _ => ?_
  refine silent_getgservers.bind fun _ => (silent_findAndUpsert (silent_upsertQueries ..)).bind
    fun queryResult => ?_
  split
  · exact (Task.silent_ofOption ..).bind fun _ => Task.silent_pure ..
  · exact Task.silent_pure ..

/-- No callback responds by itself. -/
theorem silent_callback (path buffer : Text) :
    (callbackResult host calls rounds path buffer).Silent Action.response? := by
  rw [callbackResult]
  cases apiCallbacks.find? (·.getPath = path) with
  | none => exact Task.silent_pure ..
  | some api =>
    cases api with
    | whoami => exact Task.silent_pure ..
    | ping =>
      exact (Task.silent_ofOption ..).bind fun _ => (Task.silent_ofOption ..).bind fun _ =>
        (Task.silent_ofOption ..).bind
        fun _ => Task.silent_pure ..
    | userGet => exact silent_parseUserGet buffer
    | shutdownTest => exact (silent_act _ rfl).bind fun _ => Task.silent_pure ..

theorem cid_ofResult (cid : Qstring) (result : Option Text) :
    (Response.ofResult cid result).cid = cid := by
  cases result with
  | none => rfl
  | some text =>
    cases text with
    | nil => rfl
    | cons unit rest => rfl

/-- What comes behind a silent callback responds once, if it is reached. -/
theorem responds_iff {callback : Task Action (Option Text)}
    (silent : callback.Silent Action.response?) (cid : Qstring) :
    (∃ response, (callback >>= fun result =>
      .act (.respond (Response.ofResult cid result))).detached.actions.filterMap
        Action.response? = [response] ∧ response.cid = cid ∧
      (callback >>= fun result =>
        .act (.respond (Response.ofResult cid result))).detached.unhandled = false) ↔
      callback.Safe := by
  obtain ⟨actions, unhandled, settled⟩ := callback
  have none_before : actions.filterMap Action.response? = [] := silent
  cases settled with
  | resolved result =>
    have responses :
      (actions ++ [Action.respond (Response.ofResult cid result)]).filterMap Action.response? =
        [Response.ofResult cid result] := by
      rw [List.filterMap_append, none_before]
      rfl
    constructor
    · rintro ⟨response, _, _, quiet⟩
      exact ⟨result, rfl, (Bool.or_eq_false_iff.mp (Bool.or_eq_false_iff.mp quiet).1).1⟩
    · rintro ⟨_, _, quiet⟩
      refine ⟨_, responses, cid_ofResult cid result, ?_⟩
      exact Bool.or_eq_false_iff.mpr ⟨Bool.or_eq_false_iff.mpr ⟨quiet, rfl⟩, rfl⟩
  | rejected =>
    refine iff_of_false ?_ (not_safe_of_rejected actions unhandled)
    rintro ⟨response, once, _⟩
    cases none_before.symm.trans once
  | pending =>
    refine iff_of_false ?_ ?_
    · rintro ⟨response, once, _⟩
      cases none_before.symm.trans once
    · rintro ⟨_, ⟨⟩, _⟩

theorem answered_iff_safe (cid : Qstring) (path buffer : Text) :
    Answered host calls cid path buffer ↔
    ∃ rounds, (callbackResult host calls rounds path buffer).Safe :=
  exists_congr fun _ => responds_iff (silent_callback path buffer) cid

/-- A request is answered once, and leaves nothing that is rejected, just when its path asks for
nothing or is served. -/
theorem answered_once_iff (host : Host) (calls : Calls) (cid : Qstring) (path buffer : Text) :
    Answered host calls cid path buffer ↔ Served host calls path buffer :=
  (answered_iff_safe cid path buffer).trans (callbackResult_safe_iff path buffer)

end

/-- `Buffer.from` makes bytes of nothing but texts, and messages are what they are parsed from. -/
def plainHost : Host where
  plainToClass _ plain := some plain
  bufferOfObject _ := none
  null := false
  sha256 text := text
  numberText token := token

def quietRetry : Retry := ⟨.noClient, true, .resolved (), .noClient⟩

/-- Every call succeeds, and there is nothing stored. -/
def quietCalls : Calls where
  get := .resolved none
  getRetry := quietRetry
  set := .resolved ()
  setRetry := quietRetry
  redis := ⟨fun _ _ _ => .resolved (0, []), fun _ _ _ => .resolved (0, []),
    fun _ _ => .resolved (.object [])⟩
  upsert := .updated 0 1 0
  zkconfig := some fun _ => some (units "\x7b\x7d")
  liveConnectionCount := 1
  utcDateString := units "2025-01-01 00:00:00"
  utcDateNumber := units "1735689600"

/-- The empty body is no JSON: a request for a player without one is never answered. -/
theorem empty_body_unanswered :
    ¬ ∀ host calls cid path buffer, Answered host calls cid path buffer := by
  intro answered
  have served := (answered_once_iff ..).mp (answered plainHost quietCalls [] (units "/user_get") [])
  obtain ⟨⟨plain, parsed, _⟩, _⟩ := served.userGet rfl
  cases parsed

end Gearsdk.Userserver
