import Gearsdk.Http3Server
import Gearsdk.Qh3server.Exchanges

/-! Which requests a server answers. Each handler ends the server on an assertion
about the checksum, and some follow what a service or the configuration may not
have given them. -/
namespace Gearsdk
open Std Qstring

namespace Http3Server

/-! ### Results -/

/-- The result is no fault. -/
def Returns (result : Except Fault α) : Prop := ∃ value, result = .ok value

@[simp] theorem returns_ok (value : α) : Returns (.ok value) := ⟨value, rfl⟩

@[simp] theorem returns_pure (value : α) : Returns (pure value) := ⟨value, rfl⟩

@[simp] theorem not_returns_error (fault : Fault) : ¬ Returns (.error fault : Except Fault α) := by
  rintro ⟨value, same⟩
  contradiction

theorem returns_bind {first : Except Fault α} {rest : α → Except Fault β} :
    Returns (first >>= rest) ↔ ∃ value, first = .ok value ∧ Returns (rest value) := by
  cases first with
  | error fault => simp [bind, Except.bind]
  | ok value => simp [bind, Except.bind]

theorem ok_bind (value : α) (rest : α → Except Fault β) : (Except.ok value >>= rest) = rest value :=
  rfl

/-- What follows cannot fail. -/
theorem returns_bind_ok {first : Except Fault α} {rest : α → Except Fault β}
    (always : ∀ value, Returns (rest value)) :
    Returns (first >>= rest) ↔ Returns first := by
  rw [returns_bind]
  exact ⟨fun ⟨value, same, _⟩ => ⟨value, same⟩, fun ⟨value, same⟩ => ⟨value, same, always value⟩⟩

/-- What follows does not depend on the first result. -/
theorem returns_seq {first : Except Fault Unit} {rest : Except Fault α} :
    Returns (first >>= fun _ => rest) ↔ Returns first ∧ Returns rest := by
  rw [returns_bind]
  exact ⟨fun ⟨value, same, later⟩ => ⟨⟨value, same⟩, later⟩,
    fun ⟨⟨value, same⟩, later⟩ => ⟨value, same, later⟩⟩

/-! ### Checksums -/

/-- The assertion on the checksum of this request does not fail. -/
def Vouched (ndebug : Bool) (request : ConnIoReqRes) : Prop :=
  ndebug = true ∨ request.validate = true

theorem returns_assertThat {ndebug condition : Bool} :
    Returns (assertThat ndebug condition) ↔ ndebug = true ∨ condition = true := by
  rw [assertThat, ← Bool.or_eq_true]
  split
  · rename_i holds
    exact iff_of_true (returns_ok _) holds
  · rename_i fails
    exact iff_of_false (not_returns_error _) fails

theorem returns_assertCrc {ndebug : Bool} {request : ConnIoReqRes} :
    Returns (assertCrc ndebug request) ↔
      (request.hasCrcHeader = true → Vouched ndebug request) := by
  simp only [assertCrc]
  split
  · rename_i present
    rw [returns_assertThat]
    exact ⟨fun holds _ => holds, fun holds => holds present⟩
  · rename_i absent
    exact iff_of_true (returns_ok _) fun present => absurd present absent

/-! ### Redis -/

/-- Every command of the loop of `iterate_hash` gets a reply. -/
def HscanReplied : List (RedisReply (Nat × Fields)) → Prop
  | [] | .other :: _ => True
  | .null :: _ => False
  | .array (cursor, _) :: replies => cursor = 0 ∨ HscanReplied replies

/-- Every command of the loop of `scan` gets a reply. -/
def ScanReplied (cursor : Nat) : List (RedisReply (Nat × List (Qstring × RedisReply Fields))) → Prop
  | [] => True
  | .null :: _ => False
  | .other :: replies => cursor = 0 ∨ ScanReplied cursor replies
  | .array (next, keys) :: replies =>
    (∀ key ∈ keys, key.2 ≠ .null) ∧ (next = 0 ∨ ScanReplied next replies)

theorem returns_hscan (replies : List (RedisReply (Nat × Fields))) :
    Returns (hscan replies) ↔ HscanReplied replies := by
  induction replies with
  | nil => exact iff_of_true (returns_ok _) trivial
  | cons reply replies ih =>
    cases reply with
    | null => exact iff_of_false (not_returns_error _) id
    | other => exact iff_of_true (returns_ok _) trivial
    | array elements =>
      obtain ⟨cursor, fields⟩ := elements
      simp only [hscan, HscanReplied]
      split
      · rename_i last
        exact iff_of_true (returns_ok _) (.inl last)
      · rename_i more
        rw [returns_bind_ok fun _ => returns_pure _, ih]
        exact ⟨.inr, fun replied => replied.resolve_left more⟩

theorem returns_hgetall {reply : RedisReply Fields} : Returns (hgetall reply) ↔ reply ≠ .null := by
  cases reply with
  | null => exact iff_of_false (not_returns_error _) fun different => different rfl
  | array | other => exact iff_of_true (returns_ok _) (by simp)

theorem returns_hgetallKeys (keys : List (Qstring × RedisReply Fields)) :
    Returns (hgetallKeys keys) ↔ ∀ key ∈ keys, key.2 ≠ .null := by
  induction keys with
  | nil => exact iff_of_true (returns_ok _) (by simp)
  | cons first keys ih =>
    obtain ⟨key, reply⟩ := first
    rw [List.forall_mem_cons, ← returns_hgetall, ← ih]
    simp only [hgetallKeys, returns_bind]
    constructor
    · rintro ⟨fields, here, later, rest, _⟩
      exact ⟨⟨fields, here⟩, later, rest⟩
    · rintro ⟨⟨fields, here⟩, later, rest⟩
      exact ⟨fields, here, later, rest, returns_pure _⟩

theorem returns_scanFrom (cursor : Nat)
    (replies : List (RedisReply (Nat × List (Qstring × RedisReply Fields)))) :
    Returns (scanFrom cursor replies) ↔ ScanReplied cursor replies := by
  induction replies generalizing cursor with
  | nil => exact iff_of_true (returns_ok _) trivial
  | cons reply replies ih =>
    cases reply with
    | null => exact iff_of_false (not_returns_error _) id
    | other =>
      simp only [scanFrom, ScanReplied]
      split
      · rename_i first
        exact iff_of_true (returns_ok _) (.inl first)
      · rename_i more
        rw [ih]
        exact ⟨.inr, fun replied => replied.resolve_left more⟩
    | array elements =>
      obtain ⟨next, keys⟩ := elements
      simp only [scanFrom, ScanReplied]
      rw [← returns_hgetallKeys, returns_bind]
      by_cases last : next = 0
      · simp only [if_pos last]
        exact ⟨fun ⟨here, same, _⟩ => ⟨⟨here, same⟩, .inl last⟩,
          fun ⟨⟨here, same⟩, _⟩ => ⟨here, same, returns_pure _⟩⟩
      · simp only [if_neg last]
        constructor
        · rintro ⟨here, same, later⟩
          exact ⟨⟨here, same⟩, .inr ((ih next).mp ((returns_bind_ok fun _ => returns_pure _).mp later))⟩
        · rintro ⟨⟨here, same⟩, replied⟩
          have later := (ih next).mpr (replied.resolve_left last)
          exact ⟨here, same, (returns_bind_ok fun _ => returns_pure _).mpr later⟩

/-! ### Paths -/

def Asks (request : ConnIoReqRes) (path : String) : Prop :=
  ∃ header, request.getHeader (literal ":path") = some header ∧ header.value = literal path

theorem compare_header (header : Header) (path : String) (clean : Clean (literal path)) :
    Qstring.compare header.value (literal path) = 0 ↔ header.value = literal path := by
  rw [compare_iff clean, cString_of_nul_free header.clean.2]

theorem asks_iff {header : Header} (found : request.getHeader (literal ":path") = some header)
    (path : String) :
    Asks request path ↔ header.value = literal path := by
  refine ⟨fun ⟨other, same, value⟩ => ?_, fun value => ⟨header, found, value⟩⟩
  cases Option.some.inj (found.symm.trans same)
  exact value

theorem asks_of_value {header : Header} (found : request.getHeader (literal ":path") = some header)
    (value : header.value = literal endpoint) (path : String) :
    Asks request path ↔ endpoint = path := by
  rw [asks_iff found, value, literal_inj]

theorem asks_none (absent : request.getHeader (literal ":path") = none) (path : String) :
    ¬ Asks request path := by
  rintro ⟨header, found, _⟩
  rw [absent] at found
  contradiction

/-- A path of one character is no endpoint. -/
theorem asks_short {header : Header} (found : request.getHeader (literal ":path") = some header)
    (short : header.value.length ≤ 1) (path : String) (long : 1 < (literal path).length) :
    ¬ Asks request path := by
  rw [asks_iff found]
  intro value
  rw [value] at short
  omega

end Http3Server

/-! ### The sample server -/

namespace Http3SampleServer
open Http3Server

/-- What a sample server needs to answer a request: the checksums that it asserts,
replies of Redis where it lists the servers, and a room configuration where it
sends that. -/
structure Safe (s : Http3SampleServer) (request : ConnIoReqRes) : Prop where
  crc : ∀ path ∈ ["/shutdown_test", "/whoami", "/ping"], Asks request path →
    request.hasCrcHeader = true → Vouched s.ndebug request
  vouched : ∀ path ∈ ["/user_get", "/user_details", "/get_gservers"], Asks request path →
    Vouched s.ndebug request
  replied : Asks request "/user_get" ∧
      (MessageParser.parse s.tooBig RqMsgUserGet.deserialize request.data).isSome = true ∨
    Asks request "/get_gservers" ∧
      Authentication.validateToken s.ndebug s.bson s.getValue request = some 0 →
    s.context = true → ScanReplied 0 s.scanReplies
  rooms : Asks request "/user_get" →
    (MessageParser.parse s.tooBig RqMsgUserGet.deserialize request.data).isSome = true →
    s.upserted = true → s.roomConfigList.isSome = true

variable (s : Http3SampleServer) (request response : ConnIoReqRes)

theorem returns_parsePing :
    Returns (s.parsePing request response) ↔
      (request.hasCrcHeader = true → Vouched s.ndebug request) :=
  (returns_bind_ok fun _ => returns_pure _).trans returns_assertCrc

theorem returns_parseShutdownTest :
    Returns (s.parseShutdownTest request response) ↔
      (request.hasCrcHeader = true → Vouched s.ndebug request) :=
  (returns_bind_ok fun _ => returns_pure _).trans returns_assertCrc

theorem returns_parseWhoami :
    Returns (s.parseWhoami request response) ↔
      (request.hasCrcHeader = true → Vouched s.ndebug request) :=
  (returns_bind_ok fun _ => returns_pure _).trans returns_assertCrc

theorem returns_getGservers :
    Returns s.getGservers ↔ (s.context = true → ScanReplied 0 s.scanReplies) := by
  refine (returns_bind_ok fun _ => returns_pure _).trans ?_
  rw [scan]
  split
  · rename_i connected
    rw [returns_scanFrom]
    exact ⟨fun replied _ => replied, fun replied => replied connected⟩
  · rename_i lost
    exact iff_of_true (returns_ok _) fun connected => absurd connected lost

theorem returns_parseUserGet :
    Returns (s.parseUserGet request response) ↔ Vouched s.ndebug request ∧
      ((MessageParser.parse s.tooBig RqMsgUserGet.deserialize request.data).isSome = true →
        (s.context = true → ScanReplied 0 s.scanReplies) ∧
        (s.upserted = true → s.roomConfigList.isSome = true)) := by
  rw [parseUserGet, returns_seq, returns_assertThat]
  refine and_congr_right fun _ => ?_
  cases parsed : MessageParser.parse s.tooBig RqMsgUserGet.deserialize request.data with
  | none => simp
  | some rq =>
    rw [← returns_getGservers, returns_bind]
    simp only [Option.isSome_some, forall_const]
    cases stored : s.upserted with
    | false =>
      simp only [Bool.false_eq_true, if_false, false_implies, and_true]
      exact ⟨fun ⟨gservers, listed, _⟩ => ⟨gservers, listed⟩, fun ⟨gservers, listed⟩ =>
        ⟨gservers, listed, returns_pure _⟩⟩
    | true =>
      cases rooms : s.roomConfigList with
      | none => simp
      | some list =>
        simp only [if_true, Option.isSome_some, implies_true, and_true]
        exact ⟨fun ⟨gservers, listed, _⟩ => ⟨gservers, listed⟩, fun ⟨gservers, listed⟩ =>
          ⟨gservers, listed, returns_pure _⟩⟩

/-- The token check fails only in its assertion. -/
theorem validateToken_isSome :
    (∃ result, Authentication.validateToken s.ndebug s.bson s.getValue request = some result) ↔
      Vouched s.ndebug request := by
  rw [Vouched, ← Bool.or_eq_true]
  simp only [Authentication.validateToken]
  split
  · rename_i passed
    refine iff_of_true ?_ passed
    split
    · exact ⟨_, rfl⟩
    · split
      · split
        · exact ⟨_, rfl⟩
        · split <;> exact ⟨_, rfl⟩
      · exact ⟨_, rfl⟩
  · rename_i failed
    exact iff_of_false (by simp) failed

theorem returns_parseUserDetails :
    Returns (s.parseUserDetails request response) ↔ Vouched s.ndebug request := by
  rw [← validateToken_isSome, parseUserDetails]
  cases Authentication.validateToken s.ndebug s.bson s.getValue request with
  | none => simp
  | some result => simp

theorem returns_parseGetGservers :
    Returns (s.parseGetGservers request response) ↔ Vouched s.ndebug request ∧
      (Authentication.validateToken s.ndebug s.bson s.getValue request = some 0 →
        s.context = true → ScanReplied 0 s.scanReplies) := by
  rw [← validateToken_isSome, ← returns_getGservers, parseGetGservers]
  cases checked : Authentication.validateToken s.ndebug s.bson s.getValue request with
  | none => simp
  | some result =>
    by_cases valid : result = 0
    · subst valid
      simp only [ne_eq, not_true_eq_false, if_false, Option.some.injEq, exists_eq', true_and,
        forall_const]
      exact returns_bind_ok fun _ => returns_pure _
    · simp [valid]

theorem safe_iff : s.Safe request ↔
    (∀ path ∈ ["/shutdown_test", "/whoami", "/ping"], Asks request path →
      request.hasCrcHeader = true → Vouched s.ndebug request) ∧
    (∀ path ∈ ["/user_get", "/user_details", "/get_gservers"], Asks request path →
      Vouched s.ndebug request) ∧
    (Asks request "/user_get" ∧
        (MessageParser.parse s.tooBig RqMsgUserGet.deserialize request.data).isSome = true ∨
      Asks request "/get_gservers" ∧
        Authentication.validateToken s.ndebug s.bson s.getValue request = some 0 →
      s.context = true → ScanReplied 0 s.scanReplies) ∧
    (Asks request "/user_get" →
      (MessageParser.parse s.tooBig RqMsgUserGet.deserialize request.data).isSome = true →
      s.upserted = true → s.roomConfigList.isSome = true) :=
  ⟨fun safe => ⟨safe.crc, safe.vouched, safe.replied, safe.rooms⟩, fun ⟨crc, vouched, replied, rooms⟩ =>
    ⟨crc, vouched, replied, rooms⟩⟩

def endpoints : List String :=
  ["/shutdown_test", "/whoami", "/user_get", "/user_details", "/get_gservers", "/ping"]

theorem endpoints_clean : ∀ path ∈ endpoints, Clean (literal path) ∧ 1 < (literal path).length := by
  decide +kernel

theorem safe_of_unasked (unasked : ∀ path ∈ endpoints, ¬ Asks request path) : s.Safe request := by
  simp only [endpoints, List.forall_mem_cons] at unasked
  rw [safe_iff]
  simp [unasked]

theorem returns_parse : Returns (s.parse request response) ↔ s.Safe request := by
  rw [parse]
  cases found : request.getHeader (literal ":path") with
  | none =>
    exact iff_of_true (returns_ok _) (s.safe_of_unasked request fun path _ => asks_none found path)
  | some header =>
    dsimp only
    by_cases short : header.value.length ≤ 1
    · rw [if_pos short]
      exact iff_of_true (returns_ok _) (s.safe_of_unasked request fun path listed =>
        asks_short found short path (endpoints_clean path listed).2)
    · have compared : ∀ path ∈ endpoints, Qstring.compare header.value (literal path) = 0 ↔
        header.value = literal path :=
        fun path listed => compare_header header path (endpoints_clean path listed).1
      rw [if_neg short]
      simp only [endpoints, List.forall_mem_cons] at compared
      simp only [compared]
      split
      · rename_i value
        rw [returns_parseShutdownTest, safe_iff]
        simp [asks_of_value found value]
      · split
        · rename_i value
          rw [returns_parseWhoami, safe_iff]
          simp [asks_of_value found value]
        · split
          · rename_i value
            rw [returns_parseUserGet, safe_iff]
            simp only [imp_and]
            simp [asks_of_value found value]
          · split
            · rename_i value
              rw [returns_parseUserDetails, safe_iff]
              simp [asks_of_value found value]
            · split
              · rename_i value
                rw [returns_parseGetGservers, safe_iff]
                simp [asks_of_value found value]
              · split
                · rename_i value
                  rw [returns_parsePing, safe_iff]
                  simp [asks_of_value found value]
                · rename_i shutdown whoami user details gservers ping
                  refine iff_of_true (returns_ok _) (s.safe_of_unasked request ?_)
                  simp only [endpoints, List.forall_mem_cons, asks_iff found]
                  exact ⟨shutdown, whoami, user, details, gservers, ping, by simp⟩

end Http3SampleServer

/-! ### The command server -/

namespace Http3CommandServer
open Http3Server

structure Safe (s : Http3CommandServer) (request : ConnIoReqRes) : Prop where
  crc : ∀ path ∈ ["/shutdown_test", "/shutdown_cmd_center", "/whoami"], Asks request path →
    request.hasCrcHeader = true → Vouched s.ndebug request
  replied : Asks request "/whoami" → s.context = true → HscanReplied s.servers ∧
    HscanReplied s.gservers

variable (s : Http3CommandServer) (request response : ConnIoReqRes)

theorem returns_iterateHash (context : Bool) (replies : List (RedisReply (Nat × Fields))) :
    Returns (iterateHash context replies) ↔ (context = true → HscanReplied replies) := by
  rw [iterateHash]
  split
  · rename_i connected
    rw [returns_hscan]
    exact ⟨fun replied _ => replied, fun replied => replied connected⟩
  · rename_i lost
    exact iff_of_true (returns_ok _) fun connected => absurd connected lost

theorem returns_constructResponseWhoami : Returns s.constructResponseWhoami ↔
    (s.context = true → HscanReplied s.servers ∧ HscanReplied s.gservers) := by
  rw [imp_and, ← returns_iterateHash, ← returns_iterateHash]
  simp only [constructResponseWhoami, returns_bind]
  constructor
  · rintro ⟨servers, first, gservers, second, _⟩
    exact ⟨⟨servers, first⟩, gservers, second⟩
  · rintro ⟨⟨servers, first⟩, gservers, second⟩
    exact ⟨servers, first, gservers, second, returns_pure _⟩

theorem returns_parseWhoami : Returns (s.parseWhoami request response) ↔
    (request.hasCrcHeader = true → Vouched s.ndebug request) ∧
      (s.context = true → HscanReplied s.servers ∧ HscanReplied s.gservers) := by
  rw [parseWhoami, returns_seq, returns_assertCrc, returns_bind_ok fun _ => returns_pure _,
    returns_constructResponseWhoami]

theorem returns_parseShutdownTest :
    Returns (s.parseShutdownTest request response) ↔
      (request.hasCrcHeader = true → Vouched s.ndebug request) :=
  (returns_bind_ok fun _ => returns_pure _).trans returns_assertCrc

theorem returns_parseShutdownCommandCenter :
    Returns (s.parseShutdownCommandCenter request response) ↔
      (request.hasCrcHeader = true → Vouched s.ndebug request) :=
  (returns_bind_ok fun _ => returns_pure _).trans returns_assertCrc

theorem safe_iff : s.Safe request ↔
    (∀ path ∈ ["/shutdown_test", "/shutdown_cmd_center", "/whoami"], Asks request path →
      request.hasCrcHeader = true → Vouched s.ndebug request) ∧
    (Asks request "/whoami" → s.context = true → HscanReplied s.servers ∧
      HscanReplied s.gservers) :=
  ⟨fun safe => ⟨safe.crc, safe.replied⟩, fun ⟨crc, replied⟩ => ⟨crc, replied⟩⟩

def endpoints : List String := ["/shutdown_test", "/shutdown_cmd_center", "/whoami"]

theorem endpoints_clean : ∀ path ∈ endpoints, Clean (literal path) ∧ 1 < (literal path).length := by
  decide +kernel

theorem safe_of_unasked (unasked : ∀ path ∈ endpoints, ¬ Asks request path) : s.Safe request := by
  simp only [endpoints, List.forall_mem_cons] at unasked
  rw [safe_iff]
  simp [unasked]

theorem returns_parse : Returns (s.parse request response) ↔ s.Safe request := by
  rw [parse]
  cases found : request.getHeader (literal ":path") with
  | none =>
    exact iff_of_true (returns_ok _) (s.safe_of_unasked request fun path _ => asks_none found path)
  | some header =>
    dsimp only
    by_cases short : header.value.length ≤ 1
    · rw [if_pos short]
      exact iff_of_true (returns_ok _) (s.safe_of_unasked request fun path listed =>
        asks_short found short path (endpoints_clean path listed).2)
    · have compared : ∀ path ∈ endpoints, Qstring.compare header.value (literal path) = 0 ↔
        header.value = literal path :=
        fun path listed => compare_header header path (endpoints_clean path listed).1
      rw [if_neg short]
      simp only [endpoints, List.forall_mem_cons] at compared
      simp only [compared]
      by_cases shutdown : header.value = literal "/shutdown_test"
      · have others : ¬ header.value = literal "/shutdown_cmd_center" ∧
            ¬ header.value = literal "/whoami" := by
          simp [shutdown, literal_inj]
        simp only [if_pos shutdown, if_neg others.1, if_neg others.2]
        refine (returns_bind_ok fun _ => returns_pure _).trans ?_
        rw [returns_parseShutdownTest, safe_iff]
        simp [asks_of_value found shutdown]
      · simp only [if_neg shutdown, ok_bind]
        split
        · rename_i value
          refine (returns_bind_ok fun _ => returns_pure _).trans ?_
          rw [returns_parseShutdownCommandCenter, safe_iff]
          simp [asks_of_value found value]
        · split
          · rename_i value
            refine (returns_bind_ok fun _ => returns_pure _).trans ?_
            rw [returns_parseWhoami, safe_iff]
            simp [asks_of_value found value]
          · rename_i center whoami
            refine iff_of_true (returns_ok _) (s.safe_of_unasked request ?_)
            simp only [endpoints, List.forall_mem_cons, asks_iff found]
            exact ⟨shutdown, center, whoami, by simp⟩

end Http3CommandServer

/-! ### Both servers -/

namespace Http3Server

def Safe : Http3Server → ConnIoReqRes → Prop
  | .sample s, request => s.Safe request
  | .command s, request => s.Safe request

/-- The request record when the request has been received. -/
def Request.record (request : Request) (record : ConnIoReqRes) : ConnIoReqRes :=
  request.data.flatten.foldl ConnIoReqRes.setPayload (record.addHeaders request.headers)

/-- The stream of the request has accepted one response and as much of a payload as
its window takes. -/
def Answered (server : Http3Server) (alternateProtocol : Qstring) (conn : ConnIoQh3)
    (request : Request) (window : Nat) : Prop :=
  ∃ conn' actions writes,
    server.dispatch alternateProtocol conn request window = .ok (conn', actions, writes) ∧
    responsesOn request.streamId writes = [responseFields alternateProtocol conn'.httpResponse] ∧
    conn'.httpResponse.data ≠ [] ∧
    bodyOn request.streamId writes = conn'.httpResponse.data.take window

theorem received_eq (request : Request) (conn : ConnIoQh3) :
    (request.data.foldl (fun conn reads => conn.receive request.streamId (.data reads))
      (conn.receive request.streamId (.headers request.headers))).receive request.streamId .finished =
      { conn with httpRequest := request.record conn.httpRequest, streamId := request.streamId } :=
  Exchanges.receive_eq ⟨request.streamId, request.headers, request.data, ⟨[], none⟩, 0, []⟩ conn

theorem returns_parse (server : Http3Server) (request response : ConnIoReqRes) :
    Returns (server.parse request response) ↔ server.Safe request := by
  cases server with
  | sample s => exact s.returns_parse request response
  | command s => exact s.returns_parse request response

/-- Whatever has come on the connection before, a request is answered if and only if
the server can vouch for its checksum and has what the endpoint needs; otherwise it
ends the server. -/
theorem request_answered_iff (server : Http3Server) (alternateProtocol : Qstring) (conn : ConnIoQh3)
    (request : Request) (window : Nat) :
    server.Answered alternateProtocol conn request window ↔
      server.Safe (request.record conn.httpRequest) := by
  rw [← server.returns_parse _ conn.httpResponse, Answered]
  simp only [dispatch, received_eq]
  cases handled : server.parse (request.record conn.httpRequest) conn.httpResponse with
  | error fault =>
    refine iff_of_false ?_ (not_returns_error _)
    rintro ⟨conn', actions, writes, same, _⟩
    contradiction
  | ok result =>
    obtain ⟨httpResponse, actions⟩ := result
    refine iff_of_true ?_ (returns_ok _)
    obtain ⟨writes, sent, body, responses, _⟩ := ConnIoQh3.sendResponse_spec alternateProtocol
      ⟨request.record conn.httpRequest, httpResponse, conn.totalSentBytes, request.streamId⟩ window
    simp only [ok_bind, sent]
    refine ⟨_, _, _, rfl, ?_, ?_, ?_⟩
    · rw [responsesOn_response, responses]
    · exact payloadSent_ne httpResponse.data
    · rw [← body]
      rfl

/-- A sample server whose services answer nothing in particular. -/
def plainServer : Http3SampleServer where
  getValue _ := .nil
  bson := { initFromJson := fun _ => false, userPid := fun _ => none }
  tooBig _ := false
  timeUtcReadable := []
  sha256 _ := []

/-- A ping with a wrong checksum ends a server that is built with assertions. -/
theorem ping_fails_assertion :
    ¬ ∀ (server : Http3Server) (alternateProtocol : Qstring) (conn : ConnIoQh3)
      (request : Request) (window : Nat), server.Answered alternateProtocol conn request window := by
  intro always
  obtain ⟨conn', actions, writes, handled, _⟩ := always (.sample plainServer) [] {}
    ⟨0, [(literal ":method", literal "GET"), (literal ":path", literal "/ping"),
      (literal "crc", literal "1")], []⟩ 100
  have failed : (match (Http3Server.sample plainServer).dispatch [] {}
      ⟨0, [(literal ":method", literal "GET"), (literal ":path", literal "/ping"),
        (literal "crc", literal "1")], []⟩ 100 with
      | .error fault => some fault
      | .ok _ => none) = some .assertFailed := by decide +kernel
  simp [handled] at failed

end Http3Server
end Gearsdk
