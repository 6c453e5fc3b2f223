import Gearsdk.Qh3server
import Gearsdk.Transition

/-! Requests that a script answers. The requests of a connection are handed to
the script one by one; its responses come back through a queue and name only the
connection. Each should still go out on the stream of its own request. A response
behind the end of the connection is dropped; whether the id that names it is still
there then is left to `ParseCallbacks`. -/
namespace Gearsdk.PluginResponses
open Transition

inductive ParseReturn where
  | parseSync
  | parseAsync
  deriving DecidableEq

/-- A request is handed to the script if it has a path of more than one
character. -/
def parse (conn : ConnIoQh3) : ParseReturn :=
  match conn.httpRequest.getHeader (Qstring.literal ":path") with
  | none => .parseSync
  | some path => if path.value.length ≤ 1 then .parseSync else .parseAsync

/-- A response packet of the script names the connection and holds the payload;
the stream of the request is kept beside it for the statements only. So are the
streams that finished, the answers in the order in which they were taken, and
what the streams have accepted. -/
structure State where
  conn : ConnIoQh3 := {}
  live : Bool := true
  outstanding : List Int := []
  packets : List (Int × Qstring) := []
  finished : List Int := []
  answered : List (Int × Qstring) := []
  writes : List H3Write := []

inductive Event where
  | poll (streamId : Int) (event : H3Event) (window : Nat)
  | datagram (window : Nat)
  | respond (streamId : Int) (payload : Qstring)
  | deliver (window : Nat)
  | close

namespace State

/-- The response to the request on a stream goes out where the connection is. -/
def sendResponse (alternateProtocol : Qstring) (s : State) (request : Int) (answer : Qstring)
    (window : Nat) : State :=
  let (conn, writes) := s.conn.sendResponse alternateProtocol window
  { s with conn := conn, writes := s.writes ++ writes, answered := s.answered ++ [(request, answer)] }

def finish (alternateProtocol : Qstring) (s : State) (streamId : Int) (window : Nat) : State :=
  let s := { s with conn := s.conn.receive streamId .finished, finished := s.finished ++ [streamId] }
  match parse s.conn with
  | .parseSync => s.sendResponse alternateProtocol streamId (payloadSent []) window
  | .parseAsync => { s with outstanding := s.outstanding ++ [streamId] }

def notifyServer (alternateProtocol : Qstring) (s : State) (window : Nat) : State :=
  match s.packets with
  | [] => s
  | (request, payload) :: packets =>
      let s := { s with packets := packets }
      if s.live then
        let conn := { s.conn with httpResponse := s.conn.httpResponse.setPayload payload }
        { s with conn := conn }.sendResponse alternateProtocol request
          (payloadSent (Qstring.cString payload)) window
      else s

end State

/-- A stream finishes once, and the script answers a request once. -/
def machine (alternateProtocol : Qstring) : Machine State Event Empty where
  init := {}
  enabled s
    | .poll streamId .finished _ => s.live = true ∧ streamId ∉ s.finished
    | .poll .. | .datagram _ | .close => s.live = true
    | .respond request _ => request ∈ s.outstanding
    | .deliver _ => s.packets ≠ []
  next s
    | .poll streamId .finished window => .ok (s.finish alternateProtocol streamId window)
    | .poll streamId event _ => .ok { s with conn := s.conn.receive streamId event }
    | .datagram window =>
        let (conn, writes) := s.conn.resume window
        .ok { s with conn := conn, writes := s.writes ++ writes }
    | .respond request payload =>
        .ok { s with outstanding := s.outstanding.erase request,
                     packets := s.packets ++ [(request, payload)] }
    | .deliver window => .ok (s.notifyServer alternateProtocol window)
    | .close => .ok { s with live := false }

/-- Each answer is on the stream of its request, as the only response there:
completely, or a beginning of it if it is the last answer. Nothing is on the
other streams. -/
structure Routed (alternateProtocol : Qstring) (s : State) : Prop where
  silent : ∀ t, t ∉ s.answered.map Prod.fst → responsesOn t s.writes = [] ∧ bodyOn t s.writes = []
  response : ∀ t answer, (t, answer) ∈ s.answered →
    responsesOn t s.writes = [responseFields alternateProtocol { data := answer }]
  body : ∀ t answer, (t, answer) ∈ s.answered →
    bodyOn t s.writes = answer ∨ s.answered.getLast? = some (t, answer) ∧
      bodyOn t s.writes <+: answer

/-- The last request to finish is the one that is answered, and the answer
before is complete; and a response that goes on answers the last request. -/
def Undisturbed (s : State) : Event → Prop
  | .poll _ .finished _ => parse s.conn = .parseSync → s.conn.unsent = []
  | .datagram window =>
    window = 0 ∨ s.conn.unsent = [] ∨ s.finished.getLast? = s.answered.getLast?.map Prod.fst
  | .deliver _ =>
      s.live = true → s.finished.getLast? = s.packets.head?.map Prod.fst ∧ s.conn.unsent = []
  | _ => True

variable {alternateProtocol : Qstring} {s t : State} {request : Int} {answer : Qstring} {window : Nat}

/-- Requests only move on: from the script to the queue and from there to the
answers. -/
def requests (s : State) : List Int :=
  s.outstanding ++ s.packets.map Prod.fst ++ s.answered.map Prod.fst

/-- What holds along every run whose steps are undisturbed. -/
structure Inv (alternateProtocol : Qstring) (s : State) :
    Prop extends Routed alternateProtocol s where
  headers : s.conn.httpResponse.headers = ({} : ConnIoReqRes).headers
  last : s.finished.getLast?.getD (-1) = s.conn.streamId
  distinct : (requests s).Nodup
  known : ∀ request ∈ requests s, request ∈ s.finished
  sync : parse s.conn = .parseSync →
    s.outstanding = [] ∧ s.packets = [] ∧ payloadSent s.conn.httpResponse.data = payloadSent []
  pending : ∀ request answer, s.answered.getLast? = some (request, answer) →
    s.conn.httpResponse.data = answer ∧ bodyOn request s.writes = answer.take s.conn.totalSentBytes
  idle : s.answered = [] → s.conn.unsent = []

theorem initial : Inv alternateProtocol {} where
  silent _ _ := ⟨rfl, rfl⟩
  response _ _ member := nomatch member
  body _ _ member := nomatch member
  headers := rfl
  last := rfl
  distinct := .nil
  known _ member := nomatch member
  sync _ := ⟨rfl, rfl, rfl⟩
  pending _ _ last := nomatch last
  idle _ := rfl

theorem unsent_eq_nil_iff {conn : ConnIoQh3} :
    conn.unsent = [] ↔ conn.httpResponse.data.length ≤ conn.totalSentBytes := List.drop_eq_nil_iff

/-- When nothing is left to send, every answer is complete. -/
theorem Inv.complete (inv : Inv alternateProtocol s) (sent : s.conn.unsent = [])
    (answered : (request, answer) ∈ s.answered) : bodyOn request s.writes = answer := by
  rcases inv.body request answer answered with whole | ⟨last, _⟩
  · exact whole
  · obtain ⟨rfl, body⟩ := inv.pending request answer last
    rw [body]
    exact List.take_of_length_le (unsent_eq_nil_iff.mp sent)

/-- Otherwise the last one is not. -/
theorem Inv.incomplete (inv : Inv alternateProtocol s) (left : s.conn.unsent ≠ []) :
    ∃ request answer, s.answered.getLast? = some (request, answer) ∧
      s.conn.httpResponse.data = answer ∧
      (bodyOn request s.writes).length < answer.length := by
  cases answered : s.answered.getLast? with
  | none => exact absurd (inv.idle (List.getLast?_eq_none_iff.mp answered)) left
  | some entry =>
    obtain ⟨request, answer⟩ := entry
    obtain ⟨rfl, body⟩ := inv.pending request answer answered
    refine ⟨request, s.conn.httpResponse.data, rfl, rfl, ?_⟩
    rw [Ne, unsent_eq_nil_iff, Nat.not_le] at left
    rw [body, List.length_take]
    omega

theorem Inv.streamId_iff (inv : Inv alternateProtocol s) (finished : request ∈ s.finished) :
    s.conn.streamId = request ↔ s.finished.getLast? = some request := by
  obtain ⟨latest, last⟩ :=
    Option.isSome_iff_exists.mp (List.getLast?_isSome.mpr (List.ne_nil_of_mem finished))
  rw [← inv.last, last, Option.getD_some, Option.some_inj]

theorem Inv.unique (inv : Inv alternateProtocol s) (first : (request, answer) ∈ s.answered)
    (second : (request, answer') ∈ s.answered) : answer = answer' := by
  have nodup : (s.answered.map Prod.fst).Nodup := inv.distinct.of_append_right
  exact congrArg Prod.snd (List.inj_on_of_nodup_map nodup first second rfl)

/-- The response record that answers a request has no headers of its own, and it
goes out on the stream that the connection is at. -/
theorem sendResponse_parts (alternateProtocol : Qstring)
    (headers : s.conn.httpResponse.headers = ({} : ConnIoReqRes).headers)
    (sends : payloadSent s.conn.httpResponse.data = answer) (request : Int) (window : Nat) :
    ∃ writes, s.sendResponse alternateProtocol request answer window =
        { s with
            conn := { s.conn with
              httpResponse := { data := answer }, totalSentBytes := (answer.take window).length }
            answered := s.answered ++ [(request, answer)]
            writes := s.writes ++ writes } ∧
      responsesOn s.conn.streamId writes = [responseFields alternateProtocol { data := answer }] ∧
      bodyOn s.conn.streamId writes = answer.take window ∧
      ∀ write ∈ writes, write.streamId = s.conn.streamId := by
  obtain ⟨writes, sent, body, responses, stream⟩ :=
    s.conn.sendResponse_spec alternateProtocol window
  have record : s.conn.responseSent = { data := answer } := by
    rw [ConnIoQh3.responseSent, sends, headers]
  rw [record] at sent body
  refine ⟨.response s.conn.streamId (responseFields alternateProtocol { data := answer }) :: writes,
    ?_, ?_, ?_,
    List.forall_mem_cons.mpr ⟨rfl, stream⟩⟩
  · rw [State.sendResponse, sent]
  · rw [responsesOn_response, responses]
  · exact body

/-- Answering a request keeps the responses apart exactly when the connection is
at the stream of the request and the answer before is complete. -/
theorem answer_iff {sᵢ : State} (inv : Inv alternateProtocol s) (writes : sᵢ.writes = s.writes)
    (answered : sᵢ.answered = s.answered)
    (headers : sᵢ.conn.httpResponse.headers = ({} : ConnIoReqRes).headers)
    (sends : payloadSent sᵢ.conn.httpResponse.data = answer)
    (new : request ∉ s.answered.map Prod.fst) (window : Nat) :
    (Routed alternateProtocol (sᵢ.sendResponse alternateProtocol request answer window) →
      sᵢ.conn.streamId = request ∧ s.conn.unsent = []) ∧
    (sᵢ.conn.streamId = request → s.conn.unsent = [] →
      Routed alternateProtocol (sᵢ.sendResponse alternateProtocol request answer window) ∧
      bodyOn request (sᵢ.sendResponse alternateProtocol request answer window).writes =
        answer.take window) := by
  obtain ⟨more, sent, responses, body, stream⟩ :=
    sendResponse_parts alternateProtocol headers sends request window
  rw [sent]
  obtain ⟨noResponse, noBody⟩ := inv.silent request new
  constructor
  · intro routed
    have here : sᵢ.conn.streamId = request := by
      by_contra other
      have shown := routed.response request answer (List.mem_append_right _ (List.mem_singleton.mpr rfl))
      rw [responsesOn_append_elsewhere stream other, writes, noResponse] at shown
      cases shown
    refine ⟨here, ?_⟩
    by_contra left
    obtain ⟨before, unfinished, last, _, short⟩ := inv.incomplete left
    have member : (before, unfinished) ∈ s.answered := List.mem_of_getLast? last
    have other : before ≠ request := fun same =>
      new (List.mem_map.mpr ⟨(before, unfinished), member, same⟩)
    have unchanged : bodyOn before (sᵢ.writes ++ more) = bodyOn before s.writes := by
      rw [bodyOn_append_elsewhere stream (here ▸ other.symm), writes]
    rcases routed.body before unfinished (List.mem_append_left _ (answered ▸ member)) with
      whole | ⟨latest, _⟩
    · rw [← whole, unchanged] at short
      exact Nat.lt_irrefl _ short
    · rw [List.getLast?_concat] at latest
      cases latest
      exact other rfl
  · intro here complete
    rw [here] at responses body stream
    have shown : bodyOn request (sᵢ.writes ++ more) = answer.take window := by
      rw [bodyOn_append, writes, noBody, body, List.nil_append]
    -- an earlier answer is on another stream and stays as it was
    have before : ∀ other payload, (other, payload) ∈ s.answered → request ≠ other :=
      fun other payload member same =>
      new (List.mem_map.mpr ⟨(other, payload), member, same.symm⟩)
    refine ⟨⟨?_, ?_, ?_⟩, shown⟩
    · intro other absent
      rw [answered, List.map_append, List.mem_append, not_or] at absent
      have apart : request ≠ other := fun same => absent.2 (by simp [same])
      rw [responsesOn_append_elsewhere stream apart, bodyOn_append_elsewhere stream apart, writes]
      exact inv.silent other absent.1
    · intro other payload member
      rw [answered, List.mem_append, List.mem_singleton] at member
      rcases member with old | now
      · rw [responsesOn_append_elsewhere stream (before other payload old), writes]
        exact inv.response other payload old
      · cases now
        rw [responsesOn_append, writes, noResponse, responses, List.nil_append]
    · intro other payload member
      rw [answered, List.mem_append, List.mem_singleton] at member
      rcases member with old | now
      · left
        rw [bodyOn_append_elsewhere stream (before other payload old), writes]
        exact inv.complete complete old
      · cases now
        right
        exact ⟨List.getLast?_concat .., shown ▸ List.take_prefix ..⟩

theorem parse_receive {conn : ConnIoQh3} {streamId : Int} {event : H3Event}
    (sync : parse (conn.receive streamId event) = .parseSync) : parse conn = .parseSync := by
  cases event with
  | headers fields =>
    simp only [parse, ConnIoQh3.receive, ConnIoReqRes.getHeader] at sync ⊢
    rw [ConnIoReqRes.lookup_addHeaders] at sync
    cases kept : conn.httpRequest.headers[Crc32.checksum (Qstring.literal ":path")]? with
    | none => rfl
    | some path =>
      rw [kept] at sync
      exact sync
  | data reads =>
    simp only [parse, ConnIoQh3.receive, ConnIoReqRes.getHeader,
      ConnIoReqRes.headers_setPayloads] at sync ⊢
    exact sync
  | finished | reset | priorityUpdate | goaway => exact sync

/-- The body of the stream that the connection is at goes on, and no other. -/
theorem bodyOn_resumed
    (resumed : t = { s with
    conn := (s.conn.resume window).1, writes := s.writes ++ (s.conn.resume window).2 }) :
    bodyOn s.conn.streamId t.writes = bodyOn s.conn.streamId s.writes ++ s.conn.unsent.take window ∧
      ∀ other, s.conn.streamId ≠ other → bodyOn other t.writes = bodyOn other s.writes := by
  constructor
  · rw [resumed, bodyOn_append, ConnIoQh3.bodyOn_resume]
  · intro other apart
    rw [resumed, bodyOn_append_elsewhere ConnIoQh3.streamId_resume apart]

/-- A rest that goes to a stream of another request is in no answer of it. -/
theorem undisturbed_of_routed (inv : Inv alternateProtocol s)
    (resumed : t = { s with
    conn := (s.conn.resume window).1, writes := s.writes ++ (s.conn.resume window).2 })
    (routed : Routed alternateProtocol t) : Undisturbed s (.datagram window) := by
  have here := (bodyOn_resumed resumed).1
  have answered : t.answered = s.answered := by rw [resumed]
  by_contra disturbed
  simp only [Undisturbed, not_or] at disturbed
  obtain ⟨open_, left, other⟩ := disturbed
  have more : s.conn.unsent.take window ≠ [] := by
    rw [Ne, List.take_eq_nil_iff, not_or]
    exact ⟨open_, left⟩
  obtain ⟨request, answer, last, _, _⟩ := inv.incomplete left
  have finished : request ∈ s.finished :=
    inv.known request (List.mem_append_right _ (List.mem_map_of_mem (List.mem_of_getLast? last)))
  obtain ⟨latest, isLatest⟩ := Option.isSome_iff_exists.mp
    (List.getLast?_isSome.mpr (List.ne_nil_of_mem finished))
  have streamId : s.conn.streamId = latest := by rw [← inv.last, isLatest, Option.getD_some]
  rw [isLatest, last] at other
  have apart : latest ≠ request := fun same => other (congrArg some same)
  rw [streamId] at here
  by_cases known : latest ∈ s.answered.map Prod.fst
  · obtain ⟨⟨_, payload⟩, member, same⟩ := List.mem_map.mp known
    dsimp only at same
    rw [same] at member
    have unlast : s.answered.getLast? ≠ some (latest, payload) := by
      rw [last]
      rintro ⟨⟩
      exact apart rfl
    have before := (inv.body latest payload member).resolve_right fun isLast => unlast isLast.1
    have after := (routed.body latest payload (answered ▸ member)).resolve_right fun isLast =>
      unlast (answered ▸ isLast.1)
    rw [here, before] at after
    exact more (List.append_right_eq_self.mp after)
  · have nothing := (routed.silent latest (answered ▸ known)).2
    rw [here] at nothing
    exact more (List.append_eq_nil_iff.mp nothing).2

/-- What goes on belongs to the last request that was answered. -/
theorem wrote_of_undisturbed (inv : Inv alternateProtocol s)
    (undisturbed : Undisturbed s (.datagram window)) :
    s.conn.unsent.take window = [] ∨
      ∃ answer, s.answered.getLast? = some (s.conn.streamId, answer) := by
  rcases undisturbed with shut | complete | isLast
  · left
    rw [shut, List.take_zero]
  · left
    rw [complete, List.take_nil]
  · cases last : s.answered.getLast? with
    | none =>
      left
      rw [inv.idle (List.getLast?_eq_none_iff.mp last), List.take_nil]
    | some entry =>
      right
      have streamId := inv.last
      rw [isLast, last] at streamId
      exact ⟨entry.2, congrArg (some <| Prod.mk · entry.2) streamId⟩

/-- A response that goes on adds to the body of the last answer what the window takes. -/
theorem Inv.pending_resumed (inv : Inv alternateProtocol s)
    (resumed : t = { s with
    conn := (s.conn.resume window).1, writes := s.writes ++ (s.conn.resume window).2 })
    (undisturbed : Undisturbed s (.datagram window))
    (last : s.answered.getLast? = some (request, answer)) :
    bodyOn request t.writes = answer.take t.conn.totalSentBytes := by
  obtain ⟨here, elsewhere⟩ := bodyOn_resumed resumed
  have conn : t.conn = { s.conn with
      totalSentBytes := s.conn.totalSentBytes + (s.conn.unsent.take window).length } := by
    rw [resumed, ConnIoQh3.resume_fst]
  obtain ⟨rfl, body⟩ := inv.pending request answer last
  have grown : s.conn.httpResponse.data.take t.conn.totalSentBytes =
      bodyOn request s.writes ++ s.conn.unsent.take window := by
    rw [conn, List.take_add, body, ConnIoQh3.unsent]
    congr 1
    rw [List.take_eq_take_iff, List.length_take]
    omega
  rw [grown]
  by_cases same : s.conn.streamId = request
  · rw [← same, here]
  · rw [elsewhere request same, List.self_eq_append_right]
    rcases wrote_of_undisturbed inv undisturbed with nothing | ⟨answer', isLast⟩
    · exact nothing
    · rw [last] at isLast
      cases isLast
      exact absurd rfl same

/-- It leaves the bodies of all others. -/
theorem Inv.kept_resumed (inv : Inv alternateProtocol s)
    (resumed : t = { s with
    conn := (s.conn.resume window).1, writes := s.writes ++ (s.conn.resume window).2 })
    (undisturbed : Undisturbed s (.datagram window))
    (unlast : s.answered.getLast?.map Prod.fst ≠ some other) :
    bodyOn other t.writes = bodyOn other s.writes := by
  obtain ⟨here, elsewhere⟩ := bodyOn_resumed resumed
  by_cases same : s.conn.streamId = other
  · rcases wrote_of_undisturbed inv undisturbed with nothing | ⟨answer, isLast⟩
    · rw [← same, here, nothing, List.append_nil]
    · rw [isLast] at unlast
      exact absurd (congrArg some same) unlast
  · exact elsewhere other same

/-- A response that goes on reaches the stream that the connection is at. -/
theorem Inv.resume (inv : Inv alternateProtocol s)
    (resumed : t = { s with
    conn := (s.conn.resume window).1, writes := s.writes ++ (s.conn.resume window).2 })
    (undisturbed : Undisturbed s (.datagram window)) : Inv alternateProtocol t := by
  have answered : t.answered = s.answered := by rw [resumed]
  have responses : ∀ other, responsesOn other t.writes = responsesOn other s.writes := by
    intro other
    rw [resumed, responsesOn_append, ConnIoQh3.responsesOn_resume, List.append_nil]
  have conn : t.conn = { s.conn with
      totalSentBytes := s.conn.totalSentBytes + (s.conn.unsent.take window).length } := by
    rw [resumed, ConnIoQh3.resume_fst]
  refine { silent := ?_, response := ?_, body := ?_, headers := ?_, last := ?_, distinct := ?_,
           known := ?_,
           sync := ?_, pending := ?_, idle := ?_ }
  · intro other absent
    rw [answered] at absent
    rw [responses, inv.kept_resumed resumed undisturbed]
    · exact inv.silent other absent
    · intro isLast
      obtain ⟨entry, last, rfl⟩ := Option.map_eq_some_iff.mp isLast
      exact absent (List.mem_map_of_mem (List.mem_of_getLast? last))
  · intro request answer member
    rw [responses]
    exact inv.response request answer (answered ▸ member)
  · intro request answer member
    rw [answered] at member ⊢
    by_cases isLast : s.answered.getLast?.map Prod.fst = some request
    · obtain ⟨⟨latest, answer'⟩, last, same⟩ := Option.map_eq_some_iff.mp isLast
      obtain rfl : request = latest := same.symm
      obtain rfl := inv.unique member (List.mem_of_getLast? last)
      exact .inr ⟨last, inv.pending_resumed resumed undisturbed last ▸ List.take_prefix ..⟩
    · rw [inv.kept_resumed resumed undisturbed isLast]
      exact inv.body request answer member
  · rw [conn]
    exact inv.headers
  · rw [conn, resumed]
    exact inv.last
  · rw [resumed]
    exact inv.distinct
  · rw [resumed]
    exact inv.known
  · rw [resumed, ConnIoQh3.resume_fst]
    exact inv.sync
  · intro request answer last
    rw [answered] at last
    refine ⟨?_, inv.pending_resumed resumed undisturbed last⟩
    rw [conn]
    exact (inv.pending request answer last).1
  · intro none
    have complete := inv.idle (answered ▸ none)
    rw [unsent_eq_nil_iff] at complete ⊢
    rw [conn]
    dsimp only
    omega

theorem Inv.poll (inv : Inv alternateProtocol s) {streamId : Int} {event : H3Event}
    (unfinished : event ≠ .finished) :
    Inv alternateProtocol { s with conn := s.conn.receive streamId event } := by
  obtain ⟨httpRequest, received⟩ : ∃ httpRequest,
      s.conn.receive streamId event = { s.conn with httpRequest := httpRequest } := by
    cases event with
    | finished => exact absurd rfl unfinished
    | headers | data | reset | priorityUpdate | goaway => exact ⟨_, rfl⟩
  have sync : parse { s.conn with httpRequest := httpRequest } = .parseSync →
      parse s.conn = .parseSync := by
    rw [← received]
    exact parse_receive
  rw [received]
  exact { inv with sync := fun parsed => inv.sync (sync parsed) }

theorem Inv.respond (inv : Inv alternateProtocol s) {payload : Qstring}
    (waits : request ∈ s.outstanding) :
    Inv alternateProtocol
      { s with outstanding := s.outstanding.erase request,
               packets := s.packets ++ [(request, payload)] } := by
  have same : List.Perm
      (requests { s with
        outstanding := s.outstanding.erase request, packets := s.packets ++ [(request, payload)] })
      (requests s) := by
    simp only [requests, List.map_append, List.map_singleton]
    refine List.Perm.append_right _ ?_
    refine (List.perm_append_singleton ..).append_left _ |>.trans ?_
    refine List.perm_middle.trans ?_
    exact (List.perm_cons_erase waits).symm.append_right _
  refine { inv with distinct := same.nodup_iff.mpr inv.distinct, known := ?_, sync := ?_ }
  · intro other member
    exact inv.known other (same.mem_iff.mp member)
  · intro sync
    rw [(inv.sync sync).1] at waits
    cases waits

theorem Inv.finish_async (inv : Inv alternateProtocol s) {streamId : Int}
    (new : streamId ∉ s.finished) (async : parse s.conn = .parseAsync) :
    Inv alternateProtocol
      { s with
        conn := s.conn.receive streamId .finished
        finished := s.finished ++ [streamId]
        outstanding := s.outstanding ++ [streamId] } := by
  have same : List.Perm
      (requests
        { s with
          conn := s.conn.receive streamId .finished
          finished := s.finished ++ [streamId]
          outstanding := s.outstanding ++ [streamId] })
      (streamId :: requests s) := by
    simp only [requests, List.append_assoc]
    exact List.perm_middle
  refine { inv with last := ?_, distinct := ?_, known := ?_, sync := ?_ }
  · rw [List.getLast?_concat]
    rfl
  · refine same.nodup_iff.mpr (List.nodup_cons.mpr ⟨?_, inv.distinct⟩)
    intro known
    exact new (inv.known streamId known)
  · intro other member
    rcases List.mem_cons.mp (same.mem_iff.mp member) with rfl | old
    · exact List.mem_append_right _ (List.mem_singleton.mpr rfl)
    · exact List.mem_append_left _ (inv.known other old)
  · intro sync
    exact absurd (async.symm.trans sync) (by simp)

/-- The rest of the invariant after a request has been answered. -/
theorem Inv.answers (inv : Inv alternateProtocol s) (sᵢ : State) (request : Int)
    (writes : sᵢ.writes = s.writes) (answered : sᵢ.answered = s.answered)
    (headers : sᵢ.conn.httpResponse.headers = ({} : ConnIoReqRes).headers)
    (sends : payloadSent sᵢ.conn.httpResponse.data = answer)
    (last : sᵢ.finished.getLast?.getD (-1) = sᵢ.conn.streamId)
    (distinct : (request :: requests sᵢ).Nodup)
    (known : ∀ other ∈ request :: requests sᵢ, other ∈ sᵢ.finished)
    (sync : parse sᵢ.conn = .parseSync → sᵢ.outstanding = [] ∧ sᵢ.packets = [] ∧
    answer = payloadSent []) (window : Nat) :
    (Routed alternateProtocol (sᵢ.sendResponse alternateProtocol request answer window) →
      sᵢ.conn.streamId = request ∧ s.conn.unsent = []) ∧
    (sᵢ.conn.streamId = request → s.conn.unsent = [] →
      Inv alternateProtocol (sᵢ.sendResponse alternateProtocol request answer window)) := by
  have new : request ∉ s.answered.map Prod.fst := by
    rw [← answered]
    exact fun member => (List.nodup_cons.mp distinct).1 (List.mem_append_right _ member)
  obtain ⟨needed, enough⟩ := answer_iff inv writes answered headers sends new window
  refine ⟨needed, fun here complete => ?_⟩
  obtain ⟨routed, body⟩ := enough here complete
  obtain ⟨more, sent, _⟩ := sendResponse_parts alternateProtocol headers sends request window
  rw [sent] at routed body ⊢
  have same : List.Perm (sᵢ.outstanding ++ sᵢ.packets.map Prod.fst ++
    (sᵢ.answered ++ [(request, answer)]).map Prod.fst)
      (request :: requests sᵢ) := by
    rw [List.map_append, ← List.append_assoc]
    exact List.perm_append_singleton ..
  refine { routed with headers := rfl, last := last, distinct := same.nodup_iff.mpr distinct,
                       known := ?_,
                       sync := ?_, pending := ?_, idle := ?_ }
  · intro other member
    exact known other (same.mem_iff.mp member)
  · intro parsed
    obtain ⟨none, empty, braces⟩ := sync parsed
    refine ⟨none, empty, ?_⟩
    rw [braces]
    exact payloadSent_payloadSent []
  · intro other payload isLast
    rw [List.getLast?_concat] at isLast
    cases isLast
    refine ⟨rfl, ?_⟩
    rw [body, List.take_eq_take_iff]
    simp only [List.length_take]
    omega
  · intro none
    exact absurd none (by simp)

theorem finish_iff (inv : Inv alternateProtocol s) {streamId : Int} (new : streamId ∉ s.finished)
    (window : Nat) :
    (Routed alternateProtocol (s.finish alternateProtocol streamId window) →
      Undisturbed s (.poll streamId .finished window)) ∧
    (Undisturbed s (.poll streamId .finished window) →
      Inv alternateProtocol (s.finish alternateProtocol streamId window)) := by
  have parsed : parse (s.conn.receive streamId .finished) = parse s.conn := rfl
  cases way : parse s.conn with
  | parseAsync =>
    simp only [State.finish, Undisturbed, parsed, way, reduceCtorEq, false_implies, true_implies]
    exact ⟨fun _ => trivial, inv.finish_async new way⟩
  | parseSync =>
    simp only [State.finish, Undisturbed, parsed, way, true_implies]
    obtain ⟨outstanding, packets, braces⟩ := inv.sync way
    have fresh : streamId ∉ requests s := fun known => new (inv.known streamId known)
    have answers := inv.answers
      { s with conn := s.conn.receive streamId .finished,
               finished := s.finished ++ [streamId] } streamId rfl rfl
      inv.headers braces (by rw [List.getLast?_concat]; rfl)
      (List.nodup_cons.mpr ⟨fresh, inv.distinct⟩) ?_
      (fun _ => ⟨outstanding, packets, rfl⟩) window
    · exact ⟨fun routed => (answers.1 routed).2, answers.2 rfl⟩
    · intro other member
      rcases List.mem_cons.mp member with rfl | old
      · exact List.mem_append_right _ (List.mem_singleton.mpr rfl)
      · exact List.mem_append_left _ (inv.known other old)

theorem notifyServer_cons (queue : s.packets = (request, payload) :: packets) :
    s.notifyServer alternateProtocol window =
      if s.live then
        State.sendResponse alternateProtocol
          { s with
            packets := packets
            conn := { s.conn with httpResponse := s.conn.httpResponse.setPayload payload } }
          request (payloadSent (Qstring.cString payload)) window
      else { s with packets := packets } := by
  simp only [State.notifyServer, queue]

theorem deliver_iff (inv : Inv alternateProtocol s) (waits : s.packets ≠ []) (window : Nat) :
    (Routed alternateProtocol (s.notifyServer alternateProtocol window) →
      Undisturbed s (.deliver window)) ∧
    (Undisturbed s (.deliver window) →
      Inv alternateProtocol (s.notifyServer alternateProtocol window)) := by
  cases queue : s.packets with
  | nil => exact absurd queue waits
  | cons packet packets =>
    obtain ⟨request, payload⟩ := packet
    have same : List.Perm (requests s) (request :: requests { s with packets := packets }) := by
      simp only [requests, queue, List.map_cons]
      exact List.perm_middle.append_right _
    have nonempty : parse s.conn = .parseSync → False := by
      intro sync
      rw [(inv.sync sync).2.1] at queue
      cases queue
    by_cases live : s.live = true
    · have answers := inv.answers
        { s with
          packets := packets
          conn := { s.conn with httpResponse := s.conn.httpResponse.setPayload payload } } request rfl rfl
        inv.headers rfl inv.last (same.nodup_iff.mp inv.distinct)
        (fun other member => inv.known other (same.mem_iff.mpr member))
        (fun sync => (nonempty sync).elim) window
      rw [inv.streamId_iff (inv.known request (same.mem_iff.mpr List.mem_cons_self))] at answers
      have exactly : Undisturbed s (.deliver window) ↔ s.finished.getLast? = some request ∧
          s.conn.unsent = [] := by
        simp [Undisturbed, live, queue]
      rw [notifyServer_cons queue, if_pos live, exactly]
      exact ⟨answers.1, fun ⟨here, complete⟩ => answers.2 here complete⟩
    · rw [notifyServer_cons queue, if_neg live]
      refine ⟨fun _ delivers => absurd delivers live, fun _ => { inv with
        distinct := ?_, known := ?_, sync := ?_ }⟩
      · exact (List.nodup_cons.mp (same.nodup_iff.mp inv.distinct)).2
      · exact fun other member => inv.known other (same.mem_iff.mpr (List.mem_cons_of_mem _ member))
      · exact fun sync => (nonempty sync).elim

/-- One step of a run that has kept the responses apart. -/
theorem step_iff (inv : Inv alternateProtocol s) (step : (machine alternateProtocol).Step s e t) :
    (Routed alternateProtocol t → Undisturbed s e) ∧
      (Undisturbed s e → Inv alternateProtocol t) := by
  obtain ⟨enabled, next⟩ := step
  cases e with
  | poll streamId event window =>
    cases event with
    | finished =>
      cases next
      exact finish_iff inv enabled.2 window
    | headers | data | reset | priorityUpdate | goaway =>
      cases next
      exact ⟨fun _ => trivial, fun _ => inv.poll (by simp)⟩
  | datagram window =>
    cases next
    exact ⟨undisturbed_of_routed inv rfl, inv.resume rfl⟩
  | respond request payload =>
    cases next
    exact ⟨fun _ => trivial, fun _ => inv.respond enabled⟩
  | deliver window =>
    cases next
    exact deliver_iff inv enabled window
  | close =>
    cases next
    exact ⟨fun _ => trivial, fun _ => { inv with }⟩

/-- The responses of the script stay apart exactly as long as it answers one
request of a connection before the next one finishes, and each answer is sent
completely before the next. -/
theorem responses_routed_iff (alternateProtocol : Qstring) {es : List Event} {s : State}
    (run : (machine alternateProtocol).Run es s) :
    (machine alternateProtocol).Always (Routed alternateProtocol) es ↔
      (machine alternateProtocol).Meets Undisturbed es :=
  Machine.always_iff_meets_of initial (fun inv => inv.toRouted) (fun _ => step_iff) run

instance (s : State) : (e : Event) → Decidable ((machine alternateProtocol).enabled s e)
  | .poll _ .finished _ => inferInstanceAs (Decidable (_ ∧ _))
  | .poll _ (.headers _) _ | .poll _ (.data _) _ | .poll _ .reset _
  | .poll _ .priorityUpdate _ | .poll _ .goaway _ | .datagram _ | .close =>
    inferInstanceAs (Decidable (_ = true))
  | .respond request _ => inferInstanceAs (Decidable (request ∈ s.outstanding))
  | .deliver _ => inferInstanceAs (Decidable (s.packets ≠ []))

instance (s : State) : (e : Event) → Decidable (Undisturbed s e)
  | .poll _ .finished _ => inferInstanceAs (Decidable (_ → _))
  | .poll _ (.headers _) _ | .poll _ (.data _) _ | .poll _ .reset _
  | .poll _ .priorityUpdate _ | .poll _ .goaway _ | .respond .. | .close => .isTrue trivial
  | .datagram _ => inferInstanceAs (Decidable (_ ∨ _ ∨ _))
  | .deliver _ => inferInstanceAs (Decidable (_ → _ ∧ _))

def text : String → Qstring := Qstring.literal

/-- A request of the script on this stream. -/
def userRequest (streamId : Int) : List Event :=
  [.poll streamId (.headers [(text ":method", text "GET"), (text ":path", text "/user")]) 0,
    .poll streamId .finished 0]

/-- The second request comes when the first is answered. -/
def inTurn : List Event :=
  userRequest 0 ++ [.respond 0 (text "zero"), .deliver 100] ++ userRequest 4 ++
    [.respond 4 (text "four"), .deliver 100]

theorem responses_routed_in_turn :
    ∃ s, (machine (text "quic:9000")).Run inTurn s ∧ bodyOn 0 s.writes = text "zero" ∧
      bodyOn 4 s.writes = text "four" ∧
        (machine (text "quic:9000")).Always (Routed (text "quic:9000")) inTurn := by
  have shown : ((machine (text "quic:9000")).exec {} inTurn).map (fun s =>
    (bodyOn 0 s.writes, bodyOn 4 s.writes)) =
      some (text "zero", text "four") := by decide +kernel
  have passed : (machine (text "quic:9000")).checks (fun s e =>
      decide (Undisturbed s e)) {} inTurn = true := by
    decide +kernel
  obtain ⟨s, run, same⟩ := Machine.exec_observe shown
  obtain ⟨zero, four⟩ := Prod.mk.inj same
  have undisturbed : (machine (text "quic:9000")).Meets Undisturbed inTurn :=
    fun fs e t inside path => Machine.meets_of_checks (fun _ _ => of_decide_eq_true) passed inside path
  exact ⟨s, run, zero, four, (responses_routed_iff _ run).mpr undisturbed⟩

/-- Both requests are with the script when it answers the first one. -/
def together : List Event :=
  userRequest 0 ++ userRequest 4 ++ [.respond 0 (text "zero"), .deliver 100]

/-- The answer to the request on stream 0 is the response on stream 4. -/
theorem response_on_other_stream :
    ∃ s, (machine (text "quic:9000")).Run together s ∧ ¬ Routed (text "quic:9000") s ∧
      bodyOn 0 s.writes = [] ∧ bodyOn 4 s.writes = text "zero" := by
  have shown : ((machine (text "quic:9000")).exec {} together).map
      (fun s => (bodyOn 0 s.writes, bodyOn 4 s.writes, s.answered)) =
      some ([], text "zero", [(0, text "zero")]) := by decide +kernel
  obtain ⟨s, run, same⟩ := Machine.exec_observe shown
  obtain ⟨zero, same⟩ := Prod.mk.inj same
  obtain ⟨four, answered⟩ := Prod.mk.inj same
  refine ⟨s, run, fun routed => ?_, zero, four⟩
  have silent := (routed.silent 4 (by rw [answered]; decide)).2
  rw [four] at silent
  exact absurd silent (by decide +kernel)

end Gearsdk.PluginResponses
