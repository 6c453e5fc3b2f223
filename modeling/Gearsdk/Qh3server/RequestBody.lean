import Gearsdk.Qh3server

/-! The body of a request from the events that the connection is polled for. Every
read of the body replaces the payload by its text up to the first NUL. -/
namespace Gearsdk

/-- The size of `buf`. -/
def recvBufferSize : Nat := 65535

/-- The reads of the body that an event gives. -/
def H3Event.reads : H3Event → List Qstring
  | .data reads => reads
  | .headers _ | .finished | .reset | .priorityUpdate | .goaway => []

/-- The loop over the events of one request. -/
def ConnIoQh3.receiveAll (conn : ConnIoQh3) (s : Int) (events : List H3Event) : ConnIoQh3 :=
  events.foldl (fun conn event => conn.receive s event) conn

/-- The events of a request before it is finished, with no data of another stream
between them. Its body has been split into reads that each give something and fit
the receive buffer. -/
structure RequestEvents (body : Qstring) where
  events : List H3Event
  whole : (events.flatMap H3Event.reads).flatten = body
  sizes : ∀ read ∈ events.flatMap H3Event.reads, 0 < read.length ∧ read.length ≤ recvBufferSize

namespace RequestEvents
variable {body : Qstring}

def reads (request : RequestEvents body) : List Qstring := request.events.flatMap H3Event.reads

/-- The payload of the request record when `parse` is called. -/
def dispatchedPayload (request : RequestEvents body) (conn : ConnIoQh3) (s : Int) : Qstring :=
  (conn.receiveAll s (request.events ++ [.finished])).httpRequest.data

end RequestEvents

theorem data_setPayloads (record : ConnIoReqRes) (reads : List Qstring) :
    (reads.foldl ConnIoReqRes.setPayload record).data =
      (reads.getLast?.map Qstring.cString).getD record.data := by
  induction reads generalizing record with
  | nil => rfl
  | cons first rest ih =>
    rw [List.foldl_cons, ih, List.getLast?_cons]
    cases rest.getLast? with
    | none => rfl
    | some last => rfl

/-- The payload is what the last read of all events gave, or what it was. -/
theorem data_receiveAll (conn : ConnIoQh3) (s : Int) (events : List H3Event) :
    (conn.receiveAll s events).httpRequest.data =
      (((events.flatMap H3Event.reads).getLast?).map Qstring.cString).getD conn.httpRequest.data := by
  induction events generalizing conn with
  | nil => rfl
  | cons event rest ih =>
    rw [ConnIoQh3.receiveAll, List.foldl_cons]
    refine (ih _).trans ?_
    rw [List.flatMap_cons, List.getLast?_append]
    cases later : (rest.flatMap H3Event.reads).getLast? with
    | some last => rfl
    | none =>
      rw [Option.none_or]
      change (conn.receive s event).httpRequest.data = _
      cases event with
      | data reads => exact data_setPayloads conn.httpRequest reads
      | headers fields => exact ConnIoReqRes.data_addHeaders conn.httpRequest fields
      | finished | reset | priorityUpdate | goaway => rfl

namespace RequestEvents
variable {body : Qstring}

theorem dispatchedPayload_eq (request : RequestEvents body) (conn : ConnIoQh3) (s : Int) :
    request.dispatchedPayload conn s =
      (request.reads.getLast?.map Qstring.cString).getD conn.httpRequest.data := by
  have finished : ([.finished] : List H3Event).flatMap H3Event.reads = [] := rfl
  rw [dispatchedPayload, data_receiveAll, List.flatMap_append, finished, List.append_nil]
  rfl

/-- The server is given the body exactly when one read has brought all of it and
none of its bytes is a NUL, or when it is empty and no payload of an earlier
request is left in the record. -/
theorem dispatchedPayload_eq_body_iff (request : RequestEvents body) (conn : ConnIoQh3) (s : Int) :
    request.dispatchedPayload conn s = body ↔
      request.reads = [body] ∧ Qstring.Clean body ∨ request.reads = [] ∧
        conn.httpRequest.data = [] := by
  have whole : request.reads.flatten = body := request.whole
  have sizes : ∀ read ∈ request.reads, 0 < read.length :=
    fun read member => (request.sizes read member).1
  rw [dispatchedPayload_eq]
  rcases List.eq_nil_or_concat request.reads with none_read | ⟨before, last, split⟩
  · have empty : body = [] := by rw [← whole, none_read, List.flatten_nil]
    rw [none_read, empty]
    simp
  · rw [List.concat_eq_append] at split
    rw [split, List.getLast?_concat, Option.map_some, Option.getD_some]
    rw [split, List.flatten_append, List.flatten_singleton] at whole
    constructor
    · intro same
      -- the last read alone is as long as the body
      have shorter := (Qstring.cString_prefix last).length_le
      have lengths := congrArg List.length whole
      rw [← same, List.length_append] at lengths
      have first : before = [] := by
        by_contra more
        obtain ⟨read, rest, rfl⟩ := List.exists_cons_of_ne_nil more
        have some_read := sizes read (by rw [split]; exact List.mem_cons_self ..)
        rw [List.flatten_cons, List.length_append] at lengths
        omega
      rw [first, List.flatten_nil, List.nil_append] at whole
      have clean := Qstring.cString_clean last
      rw [same] at clean
      rw [first, whole]
      exact .inl ⟨rfl, clean⟩
    · rintro (⟨single, clean⟩ | ⟨none_read, _⟩)
      · have only : last = body := by
          have ends := congrArg List.getLast? single
          rw [List.getLast?_concat] at ends
          exact Option.some.inj ends
        rw [only]
        exact Qstring.cString_of_nul_free clean
      · exact absurd none_read (by simp)

end RequestEvents

/-- A body of two bytes that comes in two reads. -/
def splitBody : RequestEvents [65, 66] where
  events := [.headers [], .data [[65], [66]]]
  whole := rfl
  sizes := by decide

/-- A body with a NUL in it that comes in one read. -/
def binaryBody : RequestEvents [65, 0, 66] where
  events := [.headers [], .data [[65, 0, 66]]]
  whole := rfl
  sizes := by decide

/-- Of the first body only the last read is left, of the second only the beginning. -/
theorem body_not_dispatched :
    splitBody.dispatchedPayload {} 0 = [66] ∧ binaryBody.dispatchedPayload {} 0 = [65] ∧
      splitBody.dispatchedPayload {} 0 ≠ [65, 66] ∧
        binaryBody.dispatchedPayload {} 0 ≠ [65, 0, 66] := by
  decide +kernel

end Gearsdk
