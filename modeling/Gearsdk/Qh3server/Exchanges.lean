import Gearsdk.Qh3server

/-! Requests that come one after another on one connection, each answered
completely before the next. They should not be told from requests on
connections of their own. -/
namespace Gearsdk.Exchanges

/-- What the handler of a request adds to the response record. -/
structure Answer where
  headers : List (Qstring × Qstring)
  payload : Option Qstring

/-- One request as it is polled, its answer, and the windows of the stream for
the response and for each time that the connection is resumed. -/
structure Exchange where
  streamId : Int
  headers : List (Qstring × Qstring)
  data : List (List Qstring)
  answer : Answer
  window : Nat
  windows : List Nat

structure Dispatched where
  path : Option Qstring
  headers : List Header
  payload : Qstring
  deriving DecidableEq

/-- What the handler is given, and what the stream of the request has accepted. -/
structure Outcome where
  dispatched : Dispatched
  responses : List (List (Qstring × Qstring))
  body : Qstring
  deriving DecidableEq

def Answer.apply (answer : Answer) (response : ConnIoReqRes) : ConnIoReqRes :=
  match answer.payload with
  | none => response.addHeaders answer.headers
  | some payload => (response.addHeaders answer.headers).setPayload payload

def Exchange.receive (x : Exchange) (conn : ConnIoQh3) : ConnIoQh3 :=
  let conn := conn.receive x.streamId (.headers x.headers)
  let conn := x.data.foldl (fun conn reads => conn.receive x.streamId (.data reads)) conn
  conn.receive x.streamId .finished

def dispatch (request : ConnIoReqRes) : Dispatched where
  path := (request.getHeader (Qstring.literal ":path")).map Header.value
  headers := request.headerList
  payload := request.data

def resumes (conn : ConnIoQh3) : List Nat → ConnIoQh3 × List H3Write
  | [] => (conn, [])
  | window :: windows =>
      let (conn, writes) := conn.resume window
      let (conn, later) := resumes conn windows
      (conn, writes ++ later)

def serve (alternateProtocol : Qstring) (conn : ConnIoQh3) (x : Exchange) : ConnIoQh3 × Outcome :=
  let conn := x.receive conn
  let dispatched := dispatch conn.httpRequest
  let conn := { conn with httpResponse := x.answer.apply conn.httpResponse }
  let (conn, writes) := conn.sendResponse alternateProtocol x.window
  let (conn, later) := resumes conn x.windows
  (conn, ⟨dispatched, responsesOn x.streamId (writes ++ later), bodyOn x.streamId (writes ++ later)⟩)

def outcomes (alternateProtocol : Qstring) (conn : ConnIoQh3) : List Exchange → List Outcome
  | [] => []
  | x :: xs =>
      let (conn, outcome) := serve alternateProtocol conn x
      outcome :: outcomes alternateProtocol conn xs

/-- Every response has been sent completely when the next request comes. -/
def Answered (alternateProtocol : Qstring) (conn : ConnIoQh3) : List Exchange → Prop
  | [] => True
  | x :: xs =>
      let (conn, _) := serve alternateProtocol conn x
      conn.totalSentBytes = conn.httpResponse.data.length ∧ Answered alternateProtocol conn xs

/-- The exchange on a connection of its own whose stream takes everything. -/
def alone (alternateProtocol : Qstring) (x : Exchange) : Outcome :=
  (serve alternateProtocol {} { x with window := (x.answer.payload.getD []).length + 2 }).2

variable {alternateProtocol : Qstring} {conn : ConnIoQh3} {x y : Exchange} {record record' : ConnIoReqRes}

/-- The request record when the request is finished. -/
def Exchange.request (x : Exchange) (record : ConnIoReqRes) : ConnIoReqRes :=
  x.data.flatten.foldl ConnIoReqRes.setPayload (record.addHeaders x.headers)

/-- The response record as the answer goes out. -/
def Exchange.response (x : Exchange) (record : ConnIoReqRes) : ConnIoReqRes :=
  { x.answer.apply record with data := payloadSent (x.answer.apply record).data }

theorem receive_eq (x : Exchange) (conn : ConnIoQh3) :
    x.receive conn = { conn with
      httpRequest := x.request conn.httpRequest, streamId := x.streamId } := by
  have reads : ∀ (data : List (List Qstring)) (conn : ConnIoQh3),
      data.foldl (fun conn reads => conn.receive x.streamId (.data reads)) conn =
        { conn with httpRequest := data.flatten.foldl ConnIoReqRes.setPayload conn.httpRequest } := by
    intro data
    induction data with
    | nil => exact fun _ => rfl
    | cons first rest ih =>
      intro conn
      rw [List.foldl_cons, ih, List.flatten_cons, List.foldl_append]
      rfl
  rw [Exchange.receive, reads]
  rfl

theorem resumes_cons : resumes conn (window :: windows) =
    ((resumes (conn.resume window).1 windows).1,
      (conn.resume window).2 ++ (resumes (conn.resume window).1 windows).2) := rfl

/-- Whatever the windows are, the stream has got a beginning of the payload. -/
theorem resumes_spec (conn : ConnIoQh3) (windows : List Nat)
    (within : conn.totalSentBytes ≤ conn.httpResponse.data.length) :
    ∃ sent, conn.totalSentBytes ≤ sent ∧ sent ≤ conn.httpResponse.data.length ∧
      (resumes conn windows).1 = { conn with totalSentBytes := sent } ∧
      conn.httpResponse.data.take conn.totalSentBytes ++
        bodyOn conn.streamId (resumes conn windows).2 =
        conn.httpResponse.data.take sent ∧
      responsesOn conn.streamId (resumes conn windows).2 = [] := by
  induction windows generalizing conn with
  | nil => exact ⟨conn.totalSentBytes, Nat.le_refl _, within, rfl, List.append_nil _, rfl⟩
  | cons window windows ih =>
    have middle : (conn.resume window).1 = _ := ConnIoQh3.resume_fst
    have length : (conn.unsent.take window).length =
        min window (conn.httpResponse.data.length - conn.totalSentBytes) := by
      rw [List.length_take, ConnIoQh3.unsent, List.length_drop]
    obtain ⟨sent, grown, bound, state, body, responses⟩ :=
      ih (conn.resume window).1 (by rw [middle]; dsimp only; omega)
    rw [middle] at grown bound state body responses
    dsimp only at grown bound state body responses
    refine ⟨sent, by omega, bound, ?_, ?_, ?_⟩
    · rw [resumes_cons, middle]
      exact state
    · rw [resumes_cons, middle, bodyOn_append, ConnIoQh3.bodyOn_resume, ← List.append_assoc]
      refine Eq.trans (congrArg (· ++ _) ?_) body
      rw [length, ConnIoQh3.unsent, List.take_add]
      congr 1
      rw [List.take_eq_take_iff, List.length_drop]
      omega
    · rw [resumes_cons, middle, responsesOn_append, ConnIoQh3.responsesOn_resume]
      exact responses

/-- An exchange in terms of the two records that it finds. -/
theorem serve_spec (alternateProtocol : Qstring) (conn : ConnIoQh3) (x : Exchange) :
    ∃ sent, min x.window (x.response conn.httpResponse).data.length ≤ sent ∧
      sent ≤ (x.response conn.httpResponse).data.length ∧
      serve alternateProtocol conn x =
        (⟨x.request conn.httpRequest, x.response conn.httpResponse, sent, x.streamId⟩,
          ⟨dispatch (x.request conn.httpRequest),
            [responseFields alternateProtocol (x.response conn.httpResponse)],
            (x.response conn.httpResponse).data.take sent⟩) := by
  have record : ∀ record, ConnIoQh3.responseSent
      ⟨x.request conn.httpRequest, x.answer.apply record, conn.totalSentBytes, x.streamId⟩ =
        x.response record :=
    fun _ => rfl
  obtain ⟨writes, first, body, responses, _⟩ := ConnIoQh3.sendResponse_spec alternateProtocol
    ⟨x.request conn.httpRequest, x.answer.apply conn.httpResponse, conn.totalSentBytes,
      x.streamId⟩ x.window
  rw [record] at first body
  dsimp only at first body responses
  obtain ⟨sent, grown, bound, state, later, silent⟩ := resumes_spec
    ⟨x.request conn.httpRequest, x.response conn.httpResponse,
      ((x.response conn.httpResponse).data.take x.window).length,
        x.streamId⟩ x.windows (List.length_take_le' ..)
  dsimp only at grown bound state later silent
  refine ⟨sent, by rw [← List.length_take]; exact grown, bound, ?_⟩
  simp only [serve, receive_eq, first, state, bodyOn_append, responsesOn_append, silent,
    List.append_nil]
  refine congrArg (Prod.mk _) (congrArg₂ (Outcome.mk _) ?_ ?_)
  · rw [responsesOn_response, responses]
  · rw [← later]
    refine congrArg (· ++ _) (Eq.trans body ?_)
    rw [List.length_take, List.take_eq_take_iff]
    omega

/-- Records that no reader can tell apart. -/
def Same (record record' : ConnIoReqRes) : Prop :=
  record.data = record'.data ∧ ∀ k : Nat, record.headers[k]? = record'.headers[k]?

theorem dispatch_eq_iff (keyed : record.Keyed) (keyed' : record'.Keyed) :
    dispatch record = dispatch record' ↔ Same record record' := by
  simp only [dispatch, Dispatched.mk.injEq, ConnIoReqRes.headerList_eq_iff keyed keyed', Same]
  constructor
  · rintro ⟨_, headers, payload⟩
    exact ⟨payload, headers⟩
  · rintro ⟨payload, headers⟩
    exact ⟨congrArg (Option.map Header.value) (headers _), headers, payload⟩

theorem headers_eq_of_texts {headers headers' : List Header}
    (texts : headers.map (fun header => (header.name, header.value)) =
      headers'.map fun header => (header.name, header.value)) : headers = headers' := by
  refine List.map_injective_iff.mpr ?_ texts
  intro header header' same
  cases header
  cases header'
  cases same
  rfl

theorem fields_eq_iff (keyed : record.Keyed) (keyed' : record'.Keyed)
    (payload : record.data = record'.data) :
    responseFields alternateProtocol record = responseFields alternateProtocol record' ↔
      Same record record' := by
  constructor
  · intro fields
    refine ⟨payload, (ConnIoReqRes.headerList_eq_iff keyed keyed').mp (headers_eq_of_texts ?_)⟩
    exact congrArg (List.drop 5) fields
  · rintro ⟨_, headers⟩
    rw [responseFields, responseFields, payload,
      (ConnIoReqRes.headerList_eq_iff keyed keyed').mpr headers, ConnIoReqRes.getHeader,
      ConnIoReqRes.getHeader, headers]

theorem request_data (x : Exchange) (record : ConnIoReqRes) :
    (x.request record).data = match x.data.flatten.getLast? with
      | none => record.data
      | some last => Qstring.cString last := by
  rcases List.eq_nil_or_concat x.data.flatten with none | ⟨before, last, some⟩
  · rw [Exchange.request, none]
    exact ConnIoReqRes.data_addHeaders record x.headers
  · rw [Exchange.request, some, List.concat_eq_append, List.foldl_append, List.getLast?_append]
    rfl

theorem request_headers (x : Exchange) (record : ConnIoReqRes) :
    (x.request record).headers = (record.addHeaders x.headers).headers :=
  ConnIoReqRes.headers_setPayloads ..

theorem response_data (x : Exchange) (record : ConnIoReqRes) :
    (x.response record).data = payloadSent (match x.answer.payload with
      | none => record.data
      | some payload => Qstring.cString payload) := by
  simp only [Exchange.response, Answer.apply]
  split
  · rw [ConnIoReqRes.data_addHeaders]
  · rfl

theorem response_headers (x : Exchange) (record : ConnIoReqRes) :
    (x.response record).headers = (record.addHeaders x.answer.headers).headers := by
  simp only [Exchange.response, Answer.apply]
  split <;> rfl

theorem Keyed.congr (keyed : record.Keyed) (headers : record'.headers = record.headers) :
    record'.Keyed := by
  intro k header found
  rw [headers] at found
  exact keyed k header found

theorem request_keyed (keyed : record.Keyed) : (x.request record).Keyed :=
  Keyed.congr (keyed.addHeaders x.headers) (request_headers x record)

theorem response_keyed (keyed : record.Keyed) : (x.response record).Keyed :=
  Keyed.congr (keyed.addHeaders x.answer.headers) (response_headers x record)

/-- An answered exchange cannot be told from one that has found other records
exactly when it leaves records that cannot be told apart. -/
theorem outcome_eq_iff (request : record₁.Keyed) (request' : record₁'.Keyed)
    (response : record₂.Keyed) (response' : record₂'.Keyed) :
    (⟨dispatch record₁, [responseFields alternateProtocol record₂], record₂.data⟩ : Outcome) =
        ⟨dispatch record₁', [responseFields alternateProtocol record₂'], record₂'.data⟩ ↔
      Same record₁ record₁' ∧ Same record₂ record₂' := by
  rw [Outcome.mk.injEq, dispatch_eq_iff request request', List.singleton_inj]
  refine and_congr_right fun _ => ?_
  constructor
  · rintro ⟨fields, payload⟩
    exact (fields_eq_iff response response' payload).mp fields
  · intro same
    exact ⟨(fields_eq_iff response response' same.1).mpr same, same.1⟩

/-- The headers that are new under their names are all of them exactly when
those that are there already come again. -/
theorem addHeaders_eq_iff (record : ConnIoReqRes) (fields : List (Qstring × Qstring)) :
    (∀ k : Nat, (record.addHeaders fields).headers[k]? =
    (({} : ConnIoReqRes).addHeaders fields).headers[k]?) ↔
      ∀ (k : Nat) (header : Header), record.headers[k]? = some header →
        (({} : ConnIoReqRes).addHeaders fields).headers[k]? = some header := by
  refine forall_congr' fun k => ?_
  rw [ConnIoReqRes.lookup_addHeaders]
  cases record.headers[k]? with
  | none => simp
  | some header => simp [eq_comm]

/-- The second exchange sends again whatever the first one leaves behind: the
headers of the request and of the answer, and the payloads unless the first
had none. -/
structure Repeats (x y : Exchange) : Prop where
  requestHeaders : ∀ (k : Nat) (header : Header), (x.request {}).headers[k]? = some header →
    (y.request {}).headers[k]? = some header
  requestPayload : y.data.flatten = [] → (x.request {}).data = []
  answerHeaders : ∀ (k : Nat) (header : Header), (x.response {}).headers[k]? = some header →
    (y.response {}).headers[k]? = some header
  answerPayload : y.answer.payload = none → (x.response {}).data = Qstring.literal "\x7b\x7d"

theorem request_same_iff (left : Same record (x.request {})) :
    Same (y.request record) (y.request {}) ↔
      (∀ (k : Nat) (header : Header), (x.request {}).headers[k]? = some header →
        (y.request {}).headers[k]? = some header) ∧
      (y.data.flatten = [] → (x.request {}).data = []) := by
  have payload : (y.request record).data = (y.request {}).data ↔
      (y.data.flatten = [] → (x.request {}).data = []) := by
    rw [request_data, request_data, ← left.1]
    cases reads : y.data.flatten.getLast? with
    | none => simp [List.getLast?_eq_none_iff.mp reads]
    | some last =>
      have some : y.data.flatten ≠ [] := by
        intro none
        rw [none] at reads
        cases reads
      simp [some]
  rw [Same, payload, and_comm, request_headers, request_headers, addHeaders_eq_iff]
  simp only [left.2]

theorem response_same_iff (left : Same record (x.response {})) :
    Same (y.response record) (y.response {}) ↔
      (∀ (k : Nat) (header : Header), (x.response {}).headers[k]? = some header →
        (y.response {}).headers[k]? = some header) ∧
      (y.answer.payload = none → (x.response {}).data = Qstring.literal "\x7b\x7d") := by
  have full : (x.response {}).data ≠ [] := payloadSent_ne _
  have payload : (y.response record).data = (y.response {}).data ↔
      (y.answer.payload = none → (x.response {}).data = Qstring.literal "\x7b\x7d") := by
    rw [response_data, response_data, ← left.1]
    cases y.answer.payload with
    | none => simp [payloadSent, left.1, full]
    | some payload => simp
  rw [Same, payload, and_comm, response_headers, response_headers, addHeaders_eq_iff]
  simp only [left.2]

theorem serve_answered (answered : (serve alternateProtocol conn x).1.totalSentBytes =
      (serve alternateProtocol conn x).1.httpResponse.data.length) :
    (serve alternateProtocol conn x).1.httpRequest = x.request conn.httpRequest ∧
      (serve alternateProtocol conn x).1.httpResponse = x.response conn.httpResponse ∧
      (serve alternateProtocol conn x).2 =
        ⟨dispatch (x.request conn.httpRequest),
          [responseFields alternateProtocol (x.response conn.httpResponse)],
          (x.response conn.httpResponse).data⟩ := by
  obtain ⟨sent, _, _, served⟩ := serve_spec alternateProtocol conn x
  rw [served] at answered ⊢
  dsimp only at answered
  refine ⟨rfl, rfl, ?_⟩
  rw [answered, List.take_length]

theorem alone_eq (alternateProtocol : Qstring) (x : Exchange) :
    alone alternateProtocol x =
      ⟨dispatch (x.request {}), [responseFields alternateProtocol (x.response {})],
        (x.response {}).data⟩ := by
  obtain ⟨sent, full, _, served⟩ := serve_spec alternateProtocol {}
    { x with window := (x.answer.payload.getD []).length + 2 }
  have short : (x.response {}).data.length ≤ (x.answer.payload.getD []).length + 2 := by
    rw [response_data]
    cases x.answer.payload with
    | none => exact payloadSent_length []
    | some payload =>
      have kept := (Qstring.cString_prefix payload).length_le
      have sent := payloadSent_length (Qstring.cString payload)
      dsimp only [Option.getD_some]
      omega
  have sentAll : (x.response {}).data.take sent = (x.response {}).data := by
    refine List.take_of_length_le (Nat.le_trans ?_ full)
    exact Nat.le_min.mpr ⟨short, Nat.le_refl _⟩
  rw [alone, served]
  exact congrArg (Outcome.mk _ _) sentAll

/-- After an exchange that went as on a connection of its own, the next ones do
so exactly when each repeats what the one before it leaves behind. -/
theorem outcomes_eq_alone_iff {ys : List Exchange} (keyed : conn.httpRequest.Keyed)
    (keyed' : conn.httpResponse.Keyed) (left : Same conn.httpRequest (x.request {}))
    (left' : Same conn.httpResponse (x.response {}))
    (answered : Answered alternateProtocol conn ys) :
    outcomes alternateProtocol conn ys = ys.map (alone alternateProtocol) ↔
      (x :: ys).IsChain Repeats := by
  induction ys generalizing conn x with
  | nil => simp [outcomes]
  | cons y ys ih =>
    obtain ⟨complete, later⟩ := answered
    obtain ⟨request, response, outcome⟩ := serve_answered complete
    have here : (serve alternateProtocol conn y).2 = alone alternateProtocol y ↔
        Same (y.request conn.httpRequest) (y.request {}) ∧
          Same (y.response conn.httpResponse) (y.response {}) := by
      rw [outcome, alone_eq]
      exact outcome_eq_iff (request_keyed keyed) (request_keyed .empty) (response_keyed keyed')
        (response_keyed .empty)
    have repeats : Same (y.request conn.httpRequest) (y.request {}) ∧
        Same (y.response conn.httpResponse) (y.response {}) ↔ Repeats x y := by
      rw [request_same_iff left, response_same_iff left']
      constructor
      · rintro ⟨⟨headers, payload⟩, headers', payload'⟩
        exact ⟨headers, payload, headers', payload'⟩
      · rintro ⟨headers, payload, headers', payload'⟩
        exact ⟨⟨headers, payload⟩, headers', payload'⟩
    rw [outcomes, List.map_cons, List.cons.injEq, here, repeats, List.isChain_cons_cons]
    refine and_congr_right fun same => ?_
    obtain ⟨left, left'⟩ := repeats.mpr same
    rw [← request] at left
    rw [← response] at left'
    exact ih (request ▸ request_keyed keyed) (response ▸ response_keyed keyed') left left' later

/-- Exchanges on one connection are independent exactly when nothing that one
leaves in the shared records is missing from the next. -/
theorem exchanges_independent_iff (alternateProtocol : Qstring) (xs : List Exchange)
    (answered : Answered alternateProtocol {} xs) :
    outcomes alternateProtocol {} xs = xs.map (alone alternateProtocol) ↔ xs.IsChain Repeats := by
  cases xs with
  | nil => simp [outcomes]
  | cons x xs =>
    obtain ⟨complete, later⟩ := answered
    obtain ⟨request, response, outcome⟩ := serve_answered complete
    have first : (serve alternateProtocol {} x).2 = alone alternateProtocol x := by
      rw [outcome, alone_eq]
    rw [outcomes, List.map_cons, List.cons.injEq, and_iff_right first]
    refine outcomes_eq_alone_iff ?_ ?_ ?_ ?_ later
    · exact request ▸ request_keyed .empty
    · exact response ▸ response_keyed .empty
    · rw [request]
      exact ⟨rfl, fun _ => rfl⟩
    · rw [response]
      exact ⟨rfl, fun _ => rfl⟩

def text : String → Qstring := Qstring.literal

/-- A request for this path without a body. -/
def getRequest (streamId : Int) (path answer : String) : Exchange where
  streamId := streamId
  headers := [(text ":method", text "GET"), (text ":path", text path)]
  data := []
  answer := ⟨[], some (text answer)⟩
  window := 100
  windows := []

theorem same_request_independent :
    outcomes (text "quic:9000") {} [getRequest 0 "/test" "one", getRequest 4 "/test" "two"] =
      [getRequest 0 "/test" "one", getRequest 4 "/test" "two"].map (alone (text "quic:9000")) := by
  have answered : Answered (text "quic:9000") {}
      [getRequest 0 "/test" "one", getRequest 4 "/test" "two"] :=
    ⟨by decide +kernel, by decide +kernel, trivial⟩
  have repeats : Repeats (getRequest 0 "/test" "one") (getRequest 4 "/test" "two") :=
    ⟨fun _ _ same => same, fun _ => by decide +kernel, fun _ _ same => same, fun none => nomatch none⟩
  exact (exchanges_independent_iff _ _ answered).mpr (.cons_cons repeats (.singleton _))

/-- The second request is taken for the first one. -/
theorem second_path_lost :
    Answered (text "quic:9000") {} [getRequest 0 "/test" "one", getRequest 4 "/user" "two"] ∧
    outcomes (text "quic:9000") {} [getRequest 0 "/test" "one", getRequest 4 "/user" "two"] ≠
      [getRequest 0 "/test" "one", getRequest 4 "/user" "two"].map (alone (text "quic:9000")) ∧
    (outcomes (text "quic:9000") {} [getRequest 0 "/test" "one", getRequest 4 "/user" "two"]).map
      (fun outcome => outcome.dispatched.path) = [some (text "/test"), some (text "/test")] := by
  refine ⟨⟨by decide +kernel, by decide +kernel, trivial⟩, by decide +kernel, by decide +kernel⟩

end Gearsdk.Exchanges
