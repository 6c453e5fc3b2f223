import Gearsdk.ReqRes

/-! The HTTP/3 side of a server connection. All requests of a connection share
one request record, one response record and one stream id. A stream accepts
body bytes up to a window and refuses the rest until the connection is resumed. -/
namespace Gearsdk
open Std

/-- What polling the connection reports for a stream. -/
inductive H3Event where
  | headers (fields : List (Qstring × Qstring))
  | data (reads : List Qstring)
  | finished
  | reset
  | priorityUpdate
  | goaway

/-- What a stream accepts from the server. -/
inductive H3Write where
  | response (streamId : Int) (fields : List (Qstring × Qstring))
  | body (streamId : Int) (bytes : Qstring) (fin : Bool)
  deriving DecidableEq

namespace H3Write

def streamId : H3Write → Int
  | response streamId _ => streamId
  | body streamId .. => streamId

def responseOn (streamId : Int) : H3Write → Option (List (Qstring × Qstring))
  | response stream fields => if stream = streamId then some fields else none
  | body .. => none

def bodyOn (streamId : Int) : H3Write → Qstring
  | response .. => []
  | body stream bytes _ => if stream = streamId then bytes else []

end H3Write

def responsesOn (streamId : Int) (writes : List H3Write) : List (List (Qstring × Qstring)) :=
  writes.filterMap (H3Write.responseOn streamId)

def bodyOn (streamId : Int) (writes : List H3Write) : Qstring :=
  writes.flatMap (H3Write.bodyOn streamId)

structure ConnIoQh3 where
  httpRequest : ConnIoReqRes := {}
  httpResponse : ConnIoReqRes := {}
  totalSentBytes : Nat := 0
  streamId : Int := -1

def sendChunkSize : Nat := 256

/-- `%lx` of `format_string`. -/
def hexadecimal (n : Nat) : Qstring := Qstring.literal (String.ofList (Nat.toDigits 16 n))

def responseFields (alternateProtocol : Qstring) (response : ConnIoReqRes) :
    List (Qstring × Qstring) :=
  [(Qstring.literal ":status",
      match response.getHeader (Qstring.literal ":status") with
      | some status => status.value
      | none => Qstring.literal "200"),
    (Qstring.literal "Alternate-Protocol", alternateProtocol.dropLast),
    (Qstring.literal "server", Qstring.literal "quiche"),
    (Qstring.literal "content-length", Qstring.decimal response.data.length),
    (Qstring.literal "crc", hexadecimal (Crc32.checksum response.data))] ++
  response.headerList.map fun header => (header.name, header.value)

/-- The chunks of the rest of a payload that fit the window. The last one
carries the end of the stream if it is accepted whole. -/
def sendChunks (streamId : Int) : Nat → Nat → Qstring → List H3Write
  | 0, _, _ => []
  | fuel + 1, window, rest =>
      if rest = [] ∨ window = 0 then []
      else
        let chunk := rest.take sendChunkSize
        let fin := rest.length ≤ sendChunkSize
        .body streamId (chunk.take window) (fin && chunk.length ≤ window) ::
          sendChunks streamId fuel (window - chunk.length) (rest.drop sendChunkSize)

namespace ConnIoQh3

/-- One polled event; that the request is finished is left to the server. -/
def receive (conn : ConnIoQh3) (s : Int) : H3Event → ConnIoQh3
  | .headers fields => { conn with httpRequest := conn.httpRequest.addHeaders fields }
  | .data reads => { conn with httpRequest := reads.foldl ConnIoReqRes.setPayload conn.httpRequest }
  | .finished => { conn with streamId := s }
  | .reset | .priorityUpdate | .goaway => conn

def sendInChunks (conn : ConnIoQh3) (window : Nat) : ConnIoQh3 × List H3Write :=
  let rest := conn.httpResponse.data.drop conn.totalSentBytes
  let writes := sendChunks conn.streamId rest.length window rest
  ({ conn with totalSentBytes := conn.totalSentBytes + (bodyOn conn.streamId writes).length }, writes)

def sendResponse (alternateProtocol : Qstring) (conn : ConnIoQh3) (window : Nat) :
    ConnIoQh3 × List H3Write :=
  let response :=
    if conn.httpResponse.data.length = 0 then
      conn.httpResponse.setPayload (Qstring.literal "\x7b\x7d")
    else conn.httpResponse
  let conn := { conn with httpResponse := response, totalSentBytes := 0 }
  let header := H3Write.response conn.streamId (responseFields alternateProtocol response)
  if response.data.length < sendChunkSize then
    if window = 0 then (conn, [header])
    else
      let accepted := response.data.take window
      ({ conn with totalSentBytes := accepted.length },
        [header, .body conn.streamId accepted (response.data.length ≤ window)])
  else
    let (conn, writes) := conn.sendInChunks window
    (conn, header :: writes)

/-- A datagram for the connection first resumes the response that is pending. -/
def resume (conn : ConnIoQh3) (window : Nat) : ConnIoQh3 × List H3Write :=
  if conn.totalSentBytes < conn.httpResponse.data.length then conn.sendInChunks window
    else (conn, [])

end ConnIoQh3

/-- The payload that a response goes out with. -/
def payloadSent (data : Qstring) : Qstring := if data = [] then Qstring.literal "\x7b\x7d" else data

theorem payloadSent_ne (data : Qstring) : payloadSent data ≠ [] := by
  simp only [payloadSent]
  split
  · decide +kernel
  · assumption

theorem payloadSent_payloadSent (data : Qstring) :
    payloadSent (payloadSent data) = payloadSent data :=
  if_neg (payloadSent_ne data)

theorem payloadSent_length (data : Qstring) : (payloadSent data).length ≤ data.length + 2 := by
  have braces : (Qstring.literal "\x7b\x7d").length = 2 := by decide +kernel
  simp only [payloadSent]
  split <;> omega

variable {streamId : Int} {conn : ConnIoQh3} {window fuel : Nat} {rest alternateProtocol : Qstring}
variable {writes : List H3Write}

theorem bodyOn_append (streamId : Int) (writes more : List H3Write) :
    bodyOn streamId (writes ++ more) = bodyOn streamId writes ++ bodyOn streamId more :=
  List.flatMap_append

theorem responsesOn_append (streamId : Int) (writes more : List H3Write) :
    responsesOn streamId (writes ++ more) = responsesOn streamId writes ++
      responsesOn streamId more :=
  List.filterMap_append ..

theorem responsesOn_response (streamId : Int) (fields : List (Qstring × Qstring))
    (writes : List H3Write) :
    responsesOn streamId (.response streamId fields :: writes) =
      fields :: responsesOn streamId writes :=
  List.filterMap_cons_some (if_pos rfl)

theorem bodyOn_elsewhere (elsewhere : ∀ write ∈ writes, write.streamId ≠ streamId) :
    bodyOn streamId writes = [] := by
  rw [bodyOn, List.flatMap_eq_nil_iff]
  intro write member
  have other := elsewhere write member
  cases write with
  | response => rfl
  | body => exact if_neg other

theorem responsesOn_elsewhere (elsewhere : ∀ write ∈ writes, write.streamId ≠ streamId) :
    responsesOn streamId writes = [] := by
  rw [responsesOn, List.filterMap_eq_nil_iff]
  intro write member
  have other := elsewhere write member
  cases write with
  | response => exact if_neg other
  | body => rfl

theorem bodyOn_append_elsewhere (elsewhere : ∀ write ∈ writes, write.streamId = stream)
    (other : stream ≠ streamId) :
    bodyOn streamId (before ++ writes) = bodyOn streamId before := by
  have nothing : bodyOn streamId writes = [] :=
    bodyOn_elsewhere fun write member => elsewhere write member ▸ other
  rw [bodyOn_append, nothing, List.append_nil]

theorem responsesOn_append_elsewhere (elsewhere : ∀ write ∈ writes, write.streamId = stream)
    (other : stream ≠ streamId) :
    responsesOn streamId (before ++ writes) = responsesOn streamId before := by
  have nothing : responsesOn streamId writes = [] :=
    responsesOn_elsewhere fun write member => elsewhere write member ▸ other
  rw [responsesOn_append, nothing, List.append_nil]

/-- The stream takes as much of the rest as the window allows. -/
theorem bodyOn_sendChunks (enough : rest.length ≤ fuel) :
    bodyOn streamId (sendChunks streamId fuel window rest) = rest.take window := by
  induction fuel generalizing window rest with
  | zero =>
    obtain rfl := List.length_eq_zero_iff.mp (Nat.le_zero.mp enough)
    rw [List.take_nil]
    rfl
  | succ fuel ih =>
    simp only [sendChunks]
    split
    · rename_i stopped
      rcases stopped with rfl | rfl
      · rw [List.take_nil]
        rfl
      · rw [List.take_zero]
        rfl
    · rename_i going
      have nonempty : 0 < rest.length := List.length_pos_iff.mpr fun empty => going (.inl empty)
      have shorter : (rest.drop sendChunkSize).length ≤ fuel := by
        rw [List.length_drop, sendChunkSize]
        omega
      have whole : rest.take window = (rest.take sendChunkSize).take window ++
          (rest.drop sendChunkSize).take (window - (rest.take sendChunkSize).length) := by
        rw [← List.take_append, List.take_append_drop]
      rw [whole, ← ih shorter]
      simp only [bodyOn, List.flatMap_cons, H3Write.bodyOn, if_true]

theorem streamId_sendChunks :
    ∀ write ∈ sendChunks streamId fuel window rest, write.streamId = streamId := by
  induction fuel generalizing window rest with
  | zero => simp [sendChunks]
  | succ fuel ih =>
    simp only [sendChunks]
    split
    · simp
    · exact List.forall_mem_cons.mpr ⟨rfl, ih⟩

theorem responsesOn_sendChunks :
    responsesOn streamId (sendChunks stream fuel window rest) = [] := by
  induction fuel generalizing window rest with
  | zero => rfl
  | succ fuel ih =>
    simp only [sendChunks]
    split
    · rfl
    · exact ih

namespace ConnIoQh3

/-- What is left of the response of a connection. -/
def unsent (conn : ConnIoQh3) : Qstring := conn.httpResponse.data.drop conn.totalSentBytes

theorem sendInChunks_fst : (conn.sendInChunks window).1 =
    { conn with totalSentBytes := conn.totalSentBytes + (conn.unsent.take window).length } := by
  simp only [sendInChunks, bodyOn_sendChunks (Nat.le_refl _), unsent]

theorem bodyOn_sendInChunks :
    bodyOn conn.streamId (conn.sendInChunks window).2 = conn.unsent.take window :=
  bodyOn_sendChunks (Nat.le_refl _)

theorem resume_fst : (conn.resume window).1 =
    { conn with totalSentBytes := conn.totalSentBytes + (conn.unsent.take window).length } := by
  simp only [resume]
  split
  · exact sendInChunks_fst
  · rename_i complete
    rw [unsent, List.drop_eq_nil_of_le (Nat.not_lt.mp complete), List.take_nil]
    rfl

theorem bodyOn_resume : bodyOn conn.streamId (conn.resume window).2 = conn.unsent.take window := by
  simp only [resume]
  split
  · exact bodyOn_sendInChunks
  · rename_i complete
    rw [unsent, List.drop_eq_nil_of_le (Nat.not_lt.mp complete), List.take_nil]
    rfl

theorem responsesOn_resume : responsesOn streamId (conn.resume window).2 = [] := by
  simp only [resume]
  split
  · exact responsesOn_sendChunks
  · rfl

theorem streamId_resume : ∀ write ∈ (conn.resume window).2, write.streamId = conn.streamId := by
  simp only [resume]
  split
  · exact streamId_sendChunks
  · simp

/-- The response record as it goes out. -/
def responseSent (conn : ConnIoQh3) : ConnIoReqRes :=
  { conn.httpResponse with data := payloadSent conn.httpResponse.data }

theorem responseSent_eq :
    (if conn.httpResponse.data.length = 0 then conn.httpResponse.setPayload (Qstring.literal "\x7b\x7d")
      else conn.httpResponse) = conn.responseSent := by
  have text : Qstring.cString (Qstring.literal "\x7b\x7d") = Qstring.literal "\x7b\x7d" := by
    decide +kernel
  simp only [responseSent, payloadSent]
  split
  · rename_i empty
    rw [if_pos (List.length_eq_zero_iff.mp empty), ConnIoReqRes.setPayload, text]
  · rename_i full
    rw [if_neg fun empty => full (List.length_eq_zero_iff.mpr empty)]

/-- What a response writes and leaves behind. -/
theorem sendResponse_spec (alternateProtocol : Qstring) (conn : ConnIoQh3) (window : Nat) :
    ∃ writes, conn.sendResponse alternateProtocol window =
        ({ conn with
            httpResponse := conn.responseSent
            totalSentBytes := (conn.responseSent.data.take window).length },
          .response conn.streamId (responseFields alternateProtocol conn.responseSent) :: writes) ∧
      bodyOn conn.streamId writes = conn.responseSent.data.take window ∧
      responsesOn conn.streamId writes = [] ∧ ∀ write ∈ writes, write.streamId = conn.streamId := by
  simp only [sendResponse, responseSent_eq]
  split
  · split
    · rename_i shut
      subst shut
      exact ⟨[], by simp, by simp [bodyOn], rfl, by simp⟩
    · refine ⟨_, rfl, ?_, rfl, ?_⟩
      · simp [bodyOn, H3Write.bodyOn]
      · exact List.forall_mem_cons.mpr ⟨rfl, by simp⟩
  · generalize restarted : ({ conn with
      httpResponse := conn.responseSent, totalSentBytes := 0 } : ConnIoQh3) = fresh
    have whole : fresh.unsent = conn.responseSent.data := by
      rw [← restarted]
      rfl
    have stream : fresh.streamId = conn.streamId := by rw [← restarted]
    refine ⟨(fresh.sendInChunks window).2, ?_, ?_, responsesOn_sendChunks, ?_⟩
    · rw [sendInChunks_fst, whole, ← restarted, Nat.zero_add]
    · rw [← stream, bodyOn_sendInChunks, whole]
    · rw [← stream]
      exact streamId_sendChunks

end ConnIoQh3
end Gearsdk
