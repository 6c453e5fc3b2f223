import Gearsdk.Qh3server

/-! The HTTP/3 client: one request on one connection, driven by libev callbacks
until one of them breaks the loop. What libev, the socket and the connection do
is the environment of the callbacks. -/
namespace Gearsdk

/-- What `recv_cb` meets: the socket and the state of the connection after the
datagrams, whether an HTTP/3 connection could be set up, how much of a body its
stream accepts, and the events that polling yields. -/
structure Arrival where
  readFails : Bool := false
  isClosed : Bool := false
  isEstablished : Bool := true
  http3 : Bool := true
  window : Nat := 0
  events : List H3Event := []

/-- A callback that the loop of a client is woken up for. -/
inductive Activation where
  | recvCb (arrival : Arrival)
  | timeoutCb (isClosed : Bool)
  | connectionEstablishmentTimeoutCb

/-- Whether the callback calls `ev_break`. -/
def Activation.breaks : Activation → Bool
  | .recvCb arrival => !arrival.readFails && arrival.isClosed
  | .timeoutCb isClosed => isClosed
  | .connectionEstablishmentTimeoutCb => true

/-- What the request stream accepts from the client. -/
inductive H3Sent where
  | request (fields : List (Qstring × Qstring)) (fin : Bool)
  | body (bytes : Qstring) (fin : Bool)
  deriving DecidableEq

structure ConnIoQh3Client where
  reqSent : Bool := false
  response : ConnIoReqRes := {}
  resReceived : Bool := false
  sent : List H3Sent := []

/-- The response that a callback is given and the `success` beside it. -/
structure ResponseCb where
  response : ConnIoReqRes
  success : Bool

structure Qh3client where
  host : Qstring
  httpRequest : ConnIoReqRes
  responseCb : Bool
  connIo : Option ConnIoQh3Client := none

namespace H3Event

def isData : H3Event → Bool
  | .data _ => true
  | _ => false

def isFinished : H3Event → Bool
  | .finished => true
  | _ => false

def fields : H3Event → List (Qstring × Qstring)
  | .headers fields => fields
  | _ => []

def payload : H3Event → Qstring
  | .data reads => reads.flatMap Qstring.cString
  | _ => []

end H3Event

namespace Qh3client

def customFields (data : ConnIoReqRes) : List (Qstring × Qstring) :=
  data.headerList.map fun header => (header.name, header.value)

def sendGetHttpRequest (host : Qstring) (data : ConnIoReqRes) : List H3Sent :=
  [.request
    ([(Qstring.literal ":method", Qstring.literal "GET"),
      (Qstring.literal ":scheme", Qstring.literal "https"),
      (Qstring.literal ":authority", Qstring.cString host),
      (Qstring.literal "user-agent", Qstring.literal "quiche"),
      (Qstring.literal "crc", hexadecimal (Crc32.checksum data.data))] ++ customFields data) true]

/-- The body is offered once; what the stream does not accept of it is dropped. -/
def sendPostHttpRequest (host : Qstring) (data : ConnIoReqRes) (window : Nat) : List H3Sent :=
  .request
    ([(Qstring.literal ":method", Qstring.literal "POST"),
      (Qstring.literal ":scheme", Qstring.literal "https"),
      (Qstring.literal ":authority", Qstring.cString host),
      (Qstring.literal "user-agent", Qstring.literal "quiche"),
      (Qstring.literal "content-length", Qstring.decimal data.data.length),
      (Qstring.literal "crc", hexadecimal (Crc32.checksum data.data))] ++
        customFields data) false ::
    if window = 0 then [] else [.body (data.data.take window) (data.data.length ≤ window)]

def isPostrequest (data : ConnIoReqRes) : Bool := data.data.length > 0

/-- One polled event, and the calls of `response_cb` that it makes. -/
def receive (responseCb : Bool) (conn : ConnIoQh3Client) :
    H3Event → ConnIoQh3Client × List ResponseCb
  | .headers fields => ({ conn with response := conn.response.addHeaders fields }, [])
  | .data reads =>
      ({ conn with response := reads.foldl ConnIoReqRes.appendToPayload conn.response,
                   resReceived := true }, [])
  | .finished => (conn, if responseCb then [⟨conn.response, conn.resReceived⟩] else [])
  | .reset | .priorityUpdate | .goaway => (conn, [])

def poll (responseCb : Bool) (conn : ConnIoQh3Client) :
    List H3Event → ConnIoQh3Client × List ResponseCb
  | [] => (conn, [])
  | event :: rest =>
      let (conn, first) := receive responseCb conn event
      let (conn, later) := poll responseCb conn rest
      (conn, first ++ later)

/-- The request goes out once the connection is established. -/
def sendOnce (host : Qstring) (data : ConnIoReqRes) (conn : ConnIoQh3Client) (arrival : Arrival) :
    ConnIoQh3Client :=
  if arrival.isEstablished && !conn.reqSent && arrival.http3 then
    let sent :=
      if isPostrequest data then sendPostHttpRequest host data arrival.window
        else sendGetHttpRequest host data
    { conn with reqSent := true, sent := conn.sent ++ sent }
  else conn

/-- `recv_cb` while the connection is open. Without an HTTP/3 connection it
returns before polling. -/
def recvCb (client : Qh3client) (conn : ConnIoQh3Client) (arrival : Arrival) :
    ConnIoQh3Client × List ResponseCb :=
  if arrival.readFails then (conn, [])
  else
    let conn := sendOnce client.host client.httpRequest conn arrival
    if arrival.isEstablished && conn.reqSent then poll client.responseCb conn arrival.events
      else (conn, [])

def evLoop (client : Qh3client) (conn : ConnIoQh3Client) :
    List Activation → ConnIoQh3Client × List ResponseCb
  | [] => (conn, [])
  | activation :: rest =>
      if activation.breaks then (conn, [])
      else
        match activation with
        | .recvCb arrival =>
            let (conn, first) := recvCb client conn arrival
            let (conn, later) := evLoop client conn rest
            (conn, first ++ later)
        | .timeoutCb _ | .connectionEstablishmentTimeoutCb => evLoop client conn rest

/-- How `send_request` comes out: it fails before the connection record is made
or after it, or it runs the loop until a callback breaks it. -/
inductive Attempt where
  | unprepared
  | unconnected
  | looped (activations : List Activation)
      (broken : ∃ activation ∈ activations, activation.breaks = true)

def sendRequest (client : Qh3client) : Attempt → Qh3client × List ResponseCb
  | .unprepared => (client, [])
  | .unconnected => ({ client with connIo := some {} }, [])
  | .looped activations _ =>
      let (conn, calls) := evLoop client {} activations
      ({ client with connIo := some conn }, calls)

/-- Whether `recv_cb` gets the request out if it has not gone out before. -/
def sends (arrival : Arrival) : Bool := !arrival.readFails && arrival.isEstablished && arrival.http3

/-- The events that `recv_cb` comes to poll. -/
def heard (reqSent : Bool) (arrival : Arrival) : List H3Event :=
  if !arrival.readFails && arrival.isEstablished &&
    (reqSent || arrival.http3) then arrival.events else []

/-- The events that the callbacks of a loop come to poll. -/
def polled (reqSent : Bool) : List Activation → List H3Event
  | [] => []
  | activation :: rest =>
      if activation.breaks then []
      else
        match activation with
        | .recvCb arrival => heard reqSent arrival ++ polled (reqSent || sends arrival) rest
        | .timeoutCb _ | .connectionEstablishmentTimeoutCb => polled reqSent rest

def Attempt.events : Attempt → List H3Event
  | .unprepared | .unconnected => []
  | .looped activations _ => polled false activations

/-- The message that the events of a response make up: of headers with one name
the first, and the reads of the body up to their NUL bytes. -/
def message (events : List H3Event) : ConnIoReqRes :=
  { ({} : ConnIoReqRes).addHeaders (events.flatMap H3Event.fields) with
    data := events.flatMap H3Event.payload }

variable {client : Qh3client} {conn conn' : ConnIoQh3Client}
  {events before after : List H3Event} {responseCb : Bool}

theorem data_appendToPayloads (record : ConnIoReqRes) (reads : List Qstring) :
    reads.foldl ConnIoReqRes.appendToPayload record =
      { record with data := record.data ++ reads.flatMap Qstring.cString } := by
  induction reads generalizing record with
  | nil => simp
  | cons first rest ih =>
    simp only [List.foldl_cons, ih, ConnIoReqRes.appendToPayload, List.flatMap_cons,
      List.append_assoc]

theorem addHeaders_withData (record : ConnIoReqRes) (data : Qstring)
    (fields : List (Qstring × Qstring)) :
    ({ record with data } : ConnIoReqRes).addHeaders fields =
      { record.addHeaders fields with data } := by
  induction fields generalizing record with
  | nil => rfl
  | cons field rest ih =>
    have one : (({ record with data } : ConnIoReqRes).addOrGetHeader (Qstring.cString field.1)
        (Qstring.cString field.2)).1 =
          { (record.addOrGetHeader (Qstring.cString field.1) (Qstring.cString field.2)).1 with
            data } := by
      unfold ConnIoReqRes.addOrGetHeader
      dsimp only
      split <;> rfl
    simp only [ConnIoReqRes.addHeaders, List.foldl_cons, one]
    exact ih _

theorem response_poll (responseCb : Bool) (conn : ConnIoQh3Client) (events : List H3Event) :
    (poll responseCb conn events).1.response =
      { conn.response.addHeaders (events.flatMap H3Event.fields) with
        data := conn.response.data ++ events.flatMap H3Event.payload } := by
  induction events generalizing conn with
  | nil => simp [poll, ConnIoReqRes.addHeaders]
  | cons event rest ih =>
    simp only [poll, ih, List.flatMap_cons]
    cases event with
    | headers fields =>
      simp only [receive, H3Event.fields, H3Event.payload, List.nil_append,
        ConnIoReqRes.data_addHeaders]
      simp only [ConnIoReqRes.addHeaders, List.foldl_append]
    | data reads =>
      simp only [receive, H3Event.fields, H3Event.payload, List.nil_append, data_appendToPayloads,
        addHeaders_withData, List.append_assoc]
    | finished | reset | priorityUpdate | goaway => rfl

/-- Once a data event has come the response counts as received. -/
theorem resReceived_poll (responseCb : Bool) (conn : ConnIoQh3Client) (events : List H3Event) :
    (poll responseCb conn events).1.resReceived = (conn.resReceived || events.any H3Event.isData) := by
  induction events generalizing conn with
  | nil => simp [poll]
  | cons event rest ih =>
    simp only [poll, ih, List.any_cons]
    cases event with
    | data reads => simp only [receive, H3Event.isData, Bool.true_or, Bool.or_true]
    | headers | finished | reset | priorityUpdate | goaway =>
      simp only [receive, H3Event.isData, Bool.false_or]

theorem poll_append (responseCb : Bool) (conn : ConnIoQh3Client) (first later : List H3Event) :
    (poll responseCb conn (first ++ later)).2 =
      (poll responseCb conn first).2 ++ (poll responseCb (poll responseCb conn first).1 later).2 := by
  induction first generalizing conn with
  | nil => rfl
  | cons event rest ih => simp only [List.cons_append, poll, ih, List.append_assoc]

/-- There is one call for each finished event. -/
theorem calls_poll (conn : ConnIoQh3Client) (events : List H3Event) :
    (poll true conn events).2.length = events.countP H3Event.isFinished := by
  induction events generalizing conn with
  | nil => rfl
  | cons event rest ih =>
    simp only [poll, List.length_append, ih, List.countP_cons]
    cases event <;> simp [receive, H3Event.isFinished, Nat.add_comm]

/-- A finished event hands over what the events before it make up. -/
theorem answer_poll (conn : ConnIoQh3Client) (before after : List H3Event) :
    (⟨(poll true conn before).1.response, (poll true conn before).1.resReceived⟩ : ResponseCb) ∈
      (poll true conn (before ++ .finished :: after)).2 := by
  rw [poll_append]
  exact List.mem_append_right _ List.mem_cons_self

/-- Polling depends on the response alone. -/
theorem poll_alike (response : conn.response = conn'.response)
    (received : conn.resReceived = conn'.resReceived) (events : List H3Event) :
    (poll responseCb conn events).2 = (poll responseCb conn' events).2 := by
  induction events generalizing conn conn' with
  | nil => rfl
  | cons event rest ih =>
    simp only [poll]
    cases event with
    | headers | data =>
      simp only [receive, response, received, List.nil_append]
      exact ih rfl rfl
    | finished =>
      simp only [receive, response, received]
      exact congrArg _ (ih response received)
    | reset | priorityUpdate | goaway => exact ih response received

theorem reqSent_poll (responseCb : Bool) (conn : ConnIoQh3Client) (events : List H3Event) :
    (poll responseCb conn events).1.reqSent = conn.reqSent := by
  induction events generalizing conn with
  | nil => rfl
  | cons event rest ih =>
    simp only [poll, ih]
    cases event <;> rfl

/-- `recv_cb` polls from a record that differs in the request alone. -/
theorem recvCb_spec (client : Qh3client) (conn : ConnIoQh3Client) (arrival : Arrival) :
    ∃ ready : ConnIoQh3Client, ready.response = conn.response ∧
      ready.resReceived = conn.resReceived ∧
      ready.reqSent = (conn.reqSent || sends arrival) ∧
      recvCb client conn arrival = poll client.responseCb ready (heard conn.reqSent arrival) := by
  cases fails : arrival.readFails with
  | true => exact ⟨conn, rfl, rfl, by simp [sends, fails], by simp [recvCb, heard, fails, poll]⟩
  | false =>
    refine ⟨sendOnce client.host client.httpRequest conn arrival, ?_, ?_, ?_, ?_⟩
    · simp only [sendOnce]
      split <;> rfl
    · simp only [sendOnce]
      split <;> rfl
    all_goals
      cases established : arrival.isEstablished <;> cases sent : conn.reqSent <;>
        cases made : arrival.http3 <;>
        simp [sendOnce, recvCb, sends, heard, fails, established, sent, made, poll]

/-- A loop answers as one polling of all its events does. -/
theorem evLoop_polled (client : Qh3client) (conn : ConnIoQh3Client)
    (activations : List Activation) :
    (evLoop client conn activations).2 =
      (poll client.responseCb conn (polled conn.reqSent activations)).2 ∧
      (evLoop client conn activations).1.resReceived =
        (conn.resReceived || (polled conn.reqSent activations).any H3Event.isData) := by
  induction activations generalizing conn with
  | nil => simp [evLoop, polled, poll]
  | cons activation rest ih =>
    simp only [evLoop, polled]
    split
    · simp [poll]
    · cases activation with
      | recvCb arrival =>
        obtain ⟨ready, response, received, sent, polls⟩ := recvCb_spec client conn arrival
        obtain ⟨calls, flag⟩ := ih (recvCb client conn arrival).1
        have next : (recvCb client conn arrival).1.reqSent = (conn.reqSent || sends arrival) := by
          rw [polls, reqSent_poll, sent]
        simp only [calls, flag, next]
        constructor
        · rw [poll_alike response.symm received.symm, poll_append, polls]
        · rw [polls, resReceived_poll, received, List.any_append, Bool.or_assoc]
      | timeoutCb | connectionEstablishmentTimeoutCb => exact ih conn

/-- What an attempt comes to, in terms of the events that it polled. -/
theorem sendRequest_calls (client : Qh3client) (attempt : Attempt) :
    (sendRequest client attempt).2 = (poll client.responseCb {} attempt.events).2 := by
  cases attempt with
  | unprepared | unconnected => rfl
  | looped activations broken => exact (evLoop_polled client {} activations).1

/-- The flag that decides about a retry, with what it is without a connection
record. -/
theorem sendRequest_resReceived (fresh : client.connIo = none) (attempt : Attempt) :
    (((sendRequest client attempt).1.connIo.map ConnIoQh3Client.resReceived).getD false) =
      attempt.events.any H3Event.isData := by
  cases attempt with
  | unprepared => simp [sendRequest, fresh, Attempt.events]
  | unconnected => rfl
  | looped activations broken => exact (evLoop_polled client {} activations).2

end Qh3client
end Gearsdk
