import Gearsdk.OutStream
import Gearsdk.Qh3client

/-! Whether the body of a request gets out. The stream may accept less of the body
than it is offered; the client logs how much that was and goes on to wait for the
response. -/
namespace Gearsdk.Qh3client

/-- What a write adds to the request stream. -/
def H3Sent.onto (stream : OutStream UInt8) : H3Sent → OutStream UInt8
  | .request _ fin => stream.offer [] fin (.accepted 0)
  | .body bytes fin => stream.offer bytes fin (.accepted bytes.length)

/-- The request stream after an attempt. -/
def requestStream (sent : List H3Sent) : OutStream UInt8 := sent.foldl H3Sent.onto {}

/-- The result of `send_request`. -/
def Attempt.result : Attempt → Int
  | .unprepared | .unconnected => -1
  | .looped _ _ => 0

/-- The stream has the whole body, and its end with the last byte. -/
def Sent (client : Qh3client) (attempt : Attempt) : Prop :=
  ∃ conn, (sendRequest client attempt).1.connIo = some conn ∧
    requestStream conn.sent =
      { items := client.httpRequest.data, ends := [client.httpRequest.data.length] }

/-- The caller is told by the result, or by a connection record without a response
and no successful call of `response_cb`. -/
def Failed (client : Qh3client) (attempt : Attempt) : Prop :=
  attempt.result < 0 ∨
    (∀ conn, (sendRequest client attempt).1.connIo = some conn → conn.resReceived = false) ∧
      ∀ call ∈ (sendRequest client attempt).2, call.success = false

/-- The window that the request goes out with. -/
def sendingWindow : List Activation → Option Nat
  | [] => none
  | activation :: rest =>
      if activation.breaks then none
      else
        match activation with
        | .recvCb arrival => if sends arrival then some arrival.window else sendingWindow rest
        | .timeoutCb _ | .connectionEstablishmentTimeoutCb => sendingWindow rest

def Attempt.window : Attempt → Option Nat
  | .unprepared | .unconnected => none
  | .looped activations _ => sendingWindow activations

/-! ### What goes out -/

variable {client : Qh3client} {conn : ConnIoQh3Client} {attempt : Attempt}

/-- All that is sent with a window. -/
def request (host : Qstring) (data : ConnIoReqRes) (window : Nat) : List H3Sent :=
  if isPostrequest data then sendPostHttpRequest host data window else sendGetHttpRequest host data

theorem sent_poll (responseCb : Bool) (conn : ConnIoQh3Client) (events : List H3Event) :
    (poll responseCb conn events).1.sent = conn.sent := by
  induction events generalizing conn with
  | nil => rfl
  | cons event rest ih =>
    simp only [poll, ih]
    cases event <;> rfl

theorem sent_recvCb (client : Qh3client) (conn : ConnIoQh3Client) (arrival : Arrival) :
    (recvCb client conn arrival).1.sent = conn.sent ++
      if !conn.reqSent && sends arrival then request client.host client.httpRequest arrival.window
        else [] := by
  have once : (sendOnce client.host client.httpRequest conn arrival).sent = conn.sent ++
      if arrival.isEstablished && !conn.reqSent && arrival.http3 then
        request client.host client.httpRequest arrival.window else [] := by
    simp only [sendOnce]
    split
    · rfl
    · exact (List.append_nil _).symm
  cases fails : arrival.readFails with
  | true => simp [recvCb, sends, fails]
  | false =>
    have goes : (!conn.reqSent && sends arrival) =
        (arrival.isEstablished && !conn.reqSent && arrival.http3) := by
      simp only [sends, fails, Bool.not_false, Bool.true_and]
      cases conn.reqSent <;> cases arrival.isEstablished <;> cases arrival.http3 <;> rfl
    rw [goes, ← once]
    simp only [recvCb, fails, Bool.false_eq_true, if_false]
    split
    · exact sent_poll _ _ _
    · rfl

theorem reqSent_recvCb (client : Qh3client) (conn : ConnIoQh3Client) (arrival : Arrival) :
    (recvCb client conn arrival).1.reqSent = (conn.reqSent || sends arrival) := by
  obtain ⟨ready, _, _, sent, polls⟩ := recvCb_spec client conn arrival
  rw [polls, reqSent_poll, sent]

/-- The request goes out once, in the first callback that can send it. -/
theorem sent_evLoop (client : Qh3client) (conn : ConnIoQh3Client) (activations : List Activation) :
    (evLoop client conn activations).1.sent = conn.sent ++
      if conn.reqSent then [] else
        ((sendingWindow activations).map (request client.host client.httpRequest)).getD [] := by
  induction activations generalizing conn with
  | nil => simp [evLoop, sendingWindow]
  | cons activation rest ih =>
    simp only [evLoop, sendingWindow]
    split
    · simp
    · cases activation with
      | recvCb arrival =>
        simp only [ih, sent_recvCb, reqSent_recvCb]
        cases conn.reqSent <;> cases sends arrival <;> simp
      | timeoutCb | connectionEstablishmentTimeoutCb => exact ih conn

/-! ### The stream of a request -/

theorem requestStream_post (host : Qstring) (data : ConnIoReqRes) (window : Nat)
    (post : data.data ≠ []) :
    requestStream (sendPostHttpRequest host data window) =
      { items := data.data.take window
        ends := if data.data.length ≤ window then [data.data.length] else [] } := by
  have positive : 0 < data.data.length := List.length_pos_iff.mpr post
  simp only [sendPostHttpRequest]
  by_cases shut : window = 0
  · have part : ¬ data.data.length ≤ window := by omega
    rw [if_pos shut, if_neg part, shut, List.take_zero]
    rfl
  · rw [if_neg shut]
    simp only [requestStream, List.foldl_cons, List.foldl_nil, H3Sent.onto, OutStream.offer,
      OutStream.Outcome.count, OutStream.Outcome.completes]
    by_cases whole : data.data.length ≤ window
    · simp [whole, List.take_of_length_le whole]
    · simp [whole, List.take_take]

/-- The stream has all of the body exactly when the window has room for it. -/
theorem requestStream_whole_iff (host : Qstring) (data : ConnIoReqRes) (window : Nat) :
    requestStream (request host data window) = { items := data.data, ends := [data.data.length] } ↔
      data.data.length ≤ window := by
  simp only [request]
  split
  · rename_i post
    have something : data.data ≠ [] := List.length_pos_iff.mp (of_decide_eq_true post)
    rw [requestStream_post _ _ _ something]
    constructor
    · intro same
      by_contra part
      rw [if_neg part] at same
      cases congrArg OutStream.ends same
    · intro whole
      rw [if_pos whole, List.take_of_length_le whole]
  · rename_i get
    have empty : data.data = [] := by simpa [isPostrequest] using get
    rw [empty]
    exact iff_of_true rfl (Nat.zero_le _)

theorem sent_iff (client : Qh3client) (attempt : Attempt) (ran : 0 ≤ attempt.result) :
    Sent client attempt ↔ ∃ window, attempt.window = some window ∧
      client.httpRequest.data.length ≤ window := by
  cases attempt with
  | unprepared | unconnected => exact absurd ran (by decide)
  | looped activations broken =>
    have stream : (evLoop client {} activations).1.sent =
        ((sendingWindow activations).map (request client.host client.httpRequest)).getD [] :=
      sent_evLoop client {} activations
    simp only [Sent, sendRequest, Option.some.injEq, exists_eq_left', Attempt.window, stream]
    cases sendingWindow activations with
    | none =>
      refine iff_of_false (fun same => ?_) ?_
      · cases congrArg OutStream.ends same
      · rintro ⟨window, none_sent, _⟩
        contradiction
    | some window =>
      rw [Option.map_some, Option.getD_some, requestStream_whole_iff]
      simp

/-! ### Failures -/

theorem success_of_poll (responseCb : Bool) (conn : ConnIoQh3Client) (events : List H3Event)
    (silent : conn.resReceived = false) (quiet : events.any H3Event.isData = false) :
    ∀ call ∈ (poll responseCb conn events).2, call.success = false := by
  induction events generalizing conn with
  | nil => simp [poll]
  | cons event rest ih =>
    rw [List.any_cons, Bool.or_eq_false_iff] at quiet
    intro call member
    simp only [poll] at member
    rcases List.mem_append.mp member with here | later
    · cases event with
      | finished =>
        simp only [receive] at here
        split at here
        · rw [List.mem_singleton.mp here]
          exact silent
        · contradiction
      | headers | data | reset | priorityUpdate | goaway => contradiction
    · refine ih _ ?_ quiet.2 call later
      cases event with
      | data => exact absurd quiet.1 (by simp [H3Event.isData])
      | headers | finished | reset | priorityUpdate | goaway => exact silent

/-- A loop reports a failure exactly when it has polled no data. -/
theorem failed_iff (client : Qh3client) (attempt : Attempt) (ran : 0 ≤ attempt.result) :
    Failed client attempt ↔ attempt.events.any H3Event.isData = false := by
  cases attempt with
  | unprepared | unconnected => exact absurd ran (by decide)
  | looped activations broken =>
    have received : (evLoop client {} activations).1.resReceived =
      (polled false activations).any H3Event.isData :=
      (evLoop_polled client {} activations).2
    have calls : (evLoop client {} activations).2 =
      (poll client.responseCb {} (polled false activations)).2 :=
      (evLoop_polled client {} activations).1
    simp only [Failed, sendRequest, Option.some.injEq, forall_eq', received, calls, Attempt.events]
    constructor
    · rintro (negative | ⟨quiet, _⟩)
      · exact absurd negative (Int.lt_irrefl 0)
      · exact quiet
    · intro quiet
      exact .inr ⟨quiet, success_of_poll _ _ _ rfl quiet⟩

/-- An attempt gets the whole body out or reports a failure exactly when the stream
accepts the body at once, or no data comes back. -/
theorem sent_or_failed_iff (client : Qh3client) (attempt : Attempt) :
    Sent client attempt ∨ Failed client attempt ↔
      (∃ window, attempt.window = some window ∧ client.httpRequest.data.length ≤ window) ∨
        attempt.events.any H3Event.isData = false := by
  by_cases ran : 0 ≤ attempt.result
  · rw [sent_iff client attempt ran, failed_iff client attempt ran]
  · have negative := Int.not_le.mp ran
    refine iff_of_true (.inr (.inl negative)) (.inr ?_)
    cases attempt with
    | unprepared | unconnected => rfl
    | looped => exact absurd negative (Int.lt_irrefl 0)

/-- A server that answers before it has the body, and the end of the connection. -/
def earlyAnswer : Attempt :=
  .looped [.recvCb { window := 1, events := [.headers [], .data [[111, 107]], .finished] },
    .recvCb { isClosed := true }] ⟨.recvCb { isClosed := true }, by simp, rfl⟩

/-- Of two bytes one is accepted, and the request is reported as successful. -/
theorem part_of_body_sent :
    let client : Qh3client :=
      { host := [], httpRequest := { data := [65, 66] }, responseCb := true }
    ¬ Sent client earlyAnswer ∧ ¬ Failed client earlyAnswer ∧
      (sendRequest client earlyAnswer).2.map ResponseCb.success = [true] := by
  intro client
  have ran : 0 ≤ earlyAnswer.result := Int.le_refl 0
  refine ⟨?_, ?_, rfl⟩
  · rw [sent_iff client earlyAnswer ran]
    rintro ⟨window, first, room⟩
    cases Option.some.inj first
    exact absurd room (by decide)
  · rw [failed_iff client earlyAnswer ran]
    decide

end Gearsdk.Qh3client
