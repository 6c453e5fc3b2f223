import Gearsdk.OutStream
import Gearsdk.Qh3server
import Gearsdk.Transition

/-! One response, call by call: what `quiche_h3_send_body` makes of each chunk is
up to the stream. A stream that has accepted less than it was offered refuses
every further call until the connection is resumed. -/
namespace Gearsdk.ChunkedResponse
open Transition

/-- The call that comes next: the one call for a small payload, or the loop of
`send_in_chunks` at its offset. -/
inductive Point where
  | idle
  | atOnce
  | chunk (offset : Nat)
  deriving DecidableEq

structure State where
  conn : ConnIoQh3 := {}
  point : Point := .idle
  /-- What the stream of the response has accepted. -/
  stream : OutStream UInt8 := {}
  /-- A call has accepted less than it was offered since the last resumption. -/
  short : Bool := false

inductive Event where
  | sendResponse (streamId : Int) (response : ConnIoReqRes)
  | resume
  | sendBody (outcome : OutStream.Outcome)

namespace State

def payload (s : State) : Qstring := s.conn.httpResponse.data

/-- The bytes of the next call, and whether they end the stream. -/
def offered (s : State) : Qstring × Bool :=
  match s.point with
  | .idle => ([], false)
  | .atOnce => (s.payload, true)
  | .chunk offset =>
      let chunk := (s.payload.drop offset).take sendChunkSize
      (chunk, offset + chunk.length ≥ s.payload.length)

/-- The loop of `send_in_chunks` goes on as long as its offset is in the payload. -/
def loop (s : State) (offset : Nat) : State :=
  { s with point := if offset < s.payload.length then .chunk offset else .idle }

def sendInChunks (s : State) : State := s.loop s.conn.totalSentBytes

def sendResponse (s : State) (streamId : Int) (response : ConnIoReqRes) : State :=
  let httpResponse :=
    if response.data.length = 0 then response.setPayload (Qstring.literal "\x7b\x7d") else response
  let s : State := { conn := { s.conn with streamId, httpResponse, totalSentBytes := 0 } }
  if httpResponse.data.length < sendChunkSize then { s with point := .atOnce } else s.sendInChunks

def resume (s : State) : State :=
  let s := { s with short := false }
  if s.conn.totalSentBytes < s.payload.length then s.sendInChunks else s

/-- The result of the call is counted. -/
def take (s : State) (outcome : OutStream.Outcome) : State :=
  { s with
    conn := { s.conn with totalSentBytes := s.conn.totalSentBytes + outcome.count }
    stream := s.stream.offer s.offered.1 s.offered.2 outcome
    short := s.short || !outcome.completes s.offered.1
    point := .idle }

/-- After a refusal both functions return. -/
def sendBody (s : State) (outcome : OutStream.Outcome) : State :=
  match s.point, outcome with
  | .chunk offset, .accepted _ => (s.take outcome).loop (offset + sendChunkSize)
  | _, _ => s.take outcome

def enabled (s : State) : Event → Bool
  | .sendResponse _ _ | .resume => s.point = .idle
  | .sendBody outcome => s.point ≠ .idle && outcome.fits s.offered.1 &&
    (!s.short || outcome = .refused)

def next (s : State) : Event → State
  | .sendResponse streamId response => s.sendResponse streamId response
  | .resume => s.resume
  | .sendBody outcome => s.sendBody outcome

end State

abbrev machine : Machine State Event Empty where
  init := {}
  enabled s e := s.enabled e = true
  next s e := .ok (s.next e)

instance (s : State) (e : Event) : Decidable (machine.enabled s e) :=
  inferInstanceAs (Decidable (_ = true))

/-! ### The invariant -/

/-- Where the next call starts: at the first byte that has not been sent, unless
the stream is known to refuse it. -/
def Placed (s : State) : Prop :=
  match s.point with
  | .idle => True
  | .atOnce => s.payload ≠ [] ∧ s.conn.totalSentBytes = 0
  | .chunk offset => offset < s.payload.length ∧ (s.short = false → offset = s.conn.totalSentBytes)

structure Inv (s : State) : Prop where
  carries : s.stream.Carries s.payload s.conn.totalSentBytes
  placed : Placed s

theorem placed_loop {s : State} {offset : Nat} (here : s.short = false → offset < s.payload.length →
    offset = s.conn.totalSentBytes) : Placed (s.loop offset) := by
  simp only [Placed, State.loop]
  split
  · trivial
  · rename_i called
    split at called <;> contradiction
  · rename_i called
    split at called
    · rename_i inside
      cases called
      exact ⟨inside, fun open_ => here open_ inside⟩
    · contradiction

theorem offered_atOnce {s : State} (point : s.point = .atOnce) : s.offered = (s.payload, true) := by
  simp only [State.offered, point]

theorem offered_chunk {s : State} (point : s.point = .chunk offset) :
    s.offered.1 = (s.payload.drop offset).take sendChunkSize ∧
      s.offered.2 = decide (offset + s.offered.1.length ≥ s.payload.length) := by
  simp only [State.offered, point]
  exact ⟨trivial, trivial⟩

theorem Inv.sendResponse (s : State) (streamId : Int) (response : ConnIoReqRes) :
    Inv (s.sendResponse streamId response) := by
  have filled :
      (if response.data.length = 0 then response.setPayload (Qstring.literal "\x7b\x7d")
        else response) =
      { response with data := payloadSent response.data } :=
    @ConnIoQh3.responseSent_eq { httpResponse := response }
  have something : payloadSent response.data ≠ [] := payloadSent_ne response.data
  simp only [State.sendResponse, filled]
  split
  · exact ⟨OutStream.carries_new _, something, rfl⟩
  · exact ⟨OutStream.carries_new _, placed_loop fun _ _ => rfl⟩

theorem Inv.resume {s : State} (inv : Inv s) (idle : s.point = .idle) : Inv s.resume := by
  simp only [State.resume]
  split
  · exact ⟨inv.carries, placed_loop fun _ _ => rfl⟩
  · refine ⟨inv.carries, ?_⟩
    simp only [Placed, idle]

/-- The bytes that are offered come next, and the end of the stream with the last. -/
theorem Inv.offers {s : State} (inv : Inv s) (calls : s.point ≠ .idle) (open_ : s.short = false) :
    s.offered.1 ≠ [] ∧ s.offered.1 <+: s.payload.drop s.conn.totalSentBytes ∧
      s.offered.2 = decide (s.conn.totalSentBytes + s.offered.1.length = s.payload.length) := by
  have placed := inv.placed
  cases point : s.point with
  | idle => exact absurd point calls
  | atOnce =>
    simp only [Placed, point] at placed
    rw [offered_atOnce point, placed.2, List.drop_zero, Nat.zero_add, decide_eq_true rfl]
    exact ⟨placed.1, List.prefix_refl _, rfl⟩
  | chunk offset =>
    simp only [Placed, point] at placed
    obtain ⟨inside, here⟩ := placed
    obtain ⟨bytes, fin⟩ := offered_chunk point
    have size : s.offered.1.length = min sendChunkSize (s.payload.length - offset) := by
      rw [bytes, List.length_take, List.length_drop]
    have positive : 0 < sendChunkSize := by decide
    rw [← here open_, fin]
    refine ⟨fun empty => ?_, bytes ▸ List.take_prefix _ _, ?_⟩
    · rw [empty, List.length_nil] at size
      omega
    · rw [decide_eq_decide, size]
      omega

theorem Inv.sendBody {s : State} (inv : Inv s) (possible : s.enabled (.sendBody outcome) = true) :
    Inv (s.sendBody outcome) := by
  simp only [State.enabled, Bool.and_eq_true, decide_eq_true_eq, Bool.or_eq_true,
    Bool.not_eq_true'] at possible
  obtain ⟨⟨calls, fits⟩, open_⟩ := possible
  have carries : (s.take outcome).stream.Carries (s.take outcome).payload
      (s.take outcome).conn.totalSentBytes := by
    rcases open_ with open_ | rfl
    · obtain ⟨something, next, last⟩ := inv.offers calls open_
      exact inv.carries.offer something next last fits
    · change (s.stream.offer _ _ .refused).Carries s.payload (s.conn.totalSentBytes + 0)
      rw [OutStream.offer_refused]
      exact inv.carries
  simp only [State.sendBody]
  split
  · rename_i offset count point
    refine ⟨carries, placed_loop fun kept inside => ?_⟩
    -- a loop that goes on without a short call is at the end of a whole chunk
    simp only [State.take, Bool.or_eq_false_iff, Bool.not_eq_false'] at kept
    have whole := OutStream.Outcome.count_of_completes kept.2
    have placed := inv.placed
    simp only [Placed, point] at placed
    have here := placed.2 kept.1
    change offset + sendChunkSize < s.payload.length at inside
    change offset + sendChunkSize = s.conn.totalSentBytes + _
    rw [whole, ← here, (offered_chunk point).1, List.length_take, List.length_drop]
    omega
  · exact ⟨carries, trivial⟩

theorem Inv.step {s t : State} (inv : Inv s) (step : machine.Step s e t) : Inv t := by
  obtain ⟨possible, moved⟩ := step
  cases Except.ok.inj moved
  cases e with
  | sendResponse streamId response => exact Inv.sendResponse s streamId response
  | resume => exact inv.resume (of_decide_eq_true possible)
  | sendBody outcome => exact inv.sendBody possible

/-- In every state of a response, whatever its payload and whatever the stream
makes of each call, the stream has accepted the counted beginning of the payload,
and the end of the stream with the last byte and only then. -/
theorem chunks_carry_payload (run : machine.Run es s) :
    s.stream.Carries s.payload s.conn.totalSentBytes := by
  have inv : Inv s := by
    refine run.invariant Inv.step ?_
    exact ⟨OutStream.carries_new _, trivial⟩
  exact inv.carries

/-- A response of 600 bytes: one whole chunk, a short one, and the rest after a
resumption. -/
def threeCalls : List Event :=
  [.sendResponse 4 { data := List.replicate 600 65 }, .sendBody (.accepted 256),
    .sendBody (.accepted 100), .sendBody .refused, .resume, .sendBody (.accepted 244)]

theorem chunks_carry_payload_resumed :
    ∃ s, machine.Run threeCalls s ∧ s.conn.totalSentBytes = 600 ∧ s.stream.ends = [600] ∧
      s.stream.Carries s.payload s.conn.totalSentBytes := by
  have shown : (machine.exec {} threeCalls).map (fun s => (s.conn.totalSentBytes, s.stream.ends)) =
      some (600, [600]) := by decide +kernel
  obtain ⟨s, run, same⟩ := Machine.exec_observe shown
  simp only [Prod.mk.injEq] at same
  exact ⟨s, run, same.1, same.2, chunks_carry_payload run⟩

/-! ### Windows

A connection that is resumed with a window is a special case: the stream accepts
whole chunks as long as the window lasts, then a short one, and refuses the rest. -/

theorem takes_chunk {s : State} (point : s.point = .chunk offset) (open_ : s.short = false)
    (fits : count ≤ ((s.payload.drop offset).take sendChunkSize).length) :
    machine.Step s (.sendBody (.accepted count))
      ((s.take (.accepted count)).loop (offset + sendChunkSize)) := by
  have possible : s.enabled (.sendBody (.accepted count)) = true := by
    simp only [State.enabled, point, open_, OutStream.Outcome.fits, (offered_chunk point).1]
    simpa [OutStream.Outcome.count] using fits
  refine ⟨possible, ?_⟩
  simp only [State.next, State.sendBody, point]

/-- Some further calls lead from `s` to `t`. -/
def Calls (s t : State) : Prop :=
  ∃ outcomes : List OutStream.Outcome, machine.Reaches s (outcomes.map .sendBody) t

theorem Calls.cons {s t u : State} (first : machine.Step s (.sendBody outcome) t)
    (rest : Calls t u) : Calls s u := by
  obtain ⟨outcomes, path⟩ := rest
  exact ⟨outcome :: outcomes, (Machine.Reaches.single first).trans path⟩

/-- A loop that is refused leaves everything as it is. -/
theorem closes (s : State) :
    ∃ t, Calls s t ∧ t.point = .idle ∧ t.conn = s.conn ∧ t.stream = s.stream := by
  by_cases idle : s.point = .idle
  · exact ⟨s, ⟨[], .refl _⟩, idle, rfl, rfl⟩
  · have step : machine.Step s (.sendBody .refused) (s.take .refused) := by
      refine ⟨?_, ?_⟩
      · simp [State.enabled, idle, OutStream.Outcome.fits, OutStream.Outcome.count]
      · simp only [State.next, State.sendBody]
        cases s.point <;> rfl
    exact ⟨_, .cons step ⟨[], .refl _⟩, rfl, rfl, OutStream.offer_refused _ _ _⟩

/-- The loop sends what the window has room for. -/
theorem loop_window (fuel : Nat) (s : State) (window : Nat) (enough : s.conn.unsent.length ≤ fuel)
    (point : s.point = .chunk s.conn.totalSentBytes) (open_ : s.short = false) :
    ∃ t, Calls s t ∧ t.point = .idle ∧
      t.conn = { s.conn with
        totalSentBytes := s.conn.totalSentBytes + (s.conn.unsent.take window).length } ∧
      t.stream.items = s.stream.items ++ s.conn.unsent.take window := by
  induction fuel generalizing s window with
  | zero =>
    have empty : s.conn.unsent = [] := List.length_eq_zero_iff.mp (Nat.le_zero.mp enough)
    obtain ⟨t, calls, idle, conn, stream⟩ := closes s
    refine ⟨t, calls, idle, ?_, ?_⟩
    · rw [conn, empty, List.take_nil]
      rfl
    · rw [stream, empty, List.take_nil, List.append_nil]
  | succ fuel ih =>
    have offered : s.offered.1 = s.conn.unsent.take sendChunkSize := (offered_chunk point).1
    have size : s.offered.1.length = min sendChunkSize s.conn.unsent.length := by
      rw [offered, List.length_take]
    have positive : 0 < sendChunkSize := by decide
    generalize counted : min window s.offered.1.length = count
    have fits : count ≤ ((s.payload.drop s.conn.totalSentBytes).take sendChunkSize).length := by
      rw [← (offered_chunk point).1]
      omega
    have step := takes_chunk point open_ fits
    generalize reached : (s.take (.accepted count)).loop (s.conn.totalSentBytes + sendChunkSize) =
      u at step
    have conn : u.conn = { s.conn with totalSentBytes := s.conn.totalSentBytes + count } := by
      rw [← reached]
      rfl
    have items : u.stream.items = s.stream.items ++ s.offered.1.take count := by
      rw [← reached]
      rfl
    have taken : (s.offered.1.take count).length = count := by
      rw [List.length_take]
      omega
    by_cases goesOn : count = s.offered.1.length ∧
      s.conn.totalSentBytes + sendChunkSize < s.payload.length
    · obtain ⟨whole, inside⟩ := goesOn
      have left : s.conn.unsent.length = s.payload.length - s.conn.totalSentBytes :=
        List.length_drop
      have full : count = sendChunkSize := by omega
      have rest : u.conn.unsent = s.conn.unsent.drop sendChunkSize := by
        rw [conn, full]
        exact (List.drop_drop ..).symm
      have pointU : u.point = .chunk u.conn.totalSentBytes := by
        rw [conn, full, ← reached]
        exact if_pos inside
      have openU : u.short = false := by
        rw [← reached]
        simp [State.loop, State.take, open_, OutStream.Outcome.completes, whole]
      have enoughU : u.conn.unsent.length ≤ fuel := by
        rw [rest, List.length_drop]
        omega
      obtain ⟨t, calls, idle, connT, itemsT⟩ := ih u (window - sendChunkSize) enoughU pointU openU
      have split : s.conn.unsent.take window =
          s.offered.1.take count ++ (s.conn.unsent.drop sendChunkSize).take (window - sendChunkSize) := by
        rw [whole, List.take_length, offered]
        have roomy : sendChunkSize ≤ window := by omega
        rw [← List.take_add, Nat.add_sub_cancel' roomy]
      refine ⟨t, .cons step calls, idle, ?_, ?_⟩
      · rw [connT, rest, conn, split, List.length_append, taken]
        dsimp only
        rw [Nat.add_assoc]
      · rw [itemsT, items, rest, split, List.append_assoc]
    · have all : s.conn.unsent.take window = s.offered.1.take count := by
        have left : s.conn.unsent.length = s.payload.length - s.conn.totalSentBytes :=
          List.length_drop
        rw [offered, List.take_take, List.take_eq_take_iff]
        omega
      obtain ⟨t, calls, idle, connT, streamT⟩ := closes u
      refine ⟨t, .cons step calls, idle, ?_, ?_⟩
      · rw [connT, conn, all, taken]
      · rw [streamT, items, all]

/-- Resuming a connection with a window is a resumption with such calls. -/
theorem resume_window {s : State} (idle : s.point = .idle) (window : Nat) :
    ∃ t, Calls s.resume t ∧ t.point = .idle ∧ t.conn = (s.conn.resume window).1 ∧
      t.stream.items = s.stream.items ++ bodyOn s.conn.streamId (s.conn.resume window).2 := by
  rw [ConnIoQh3.resume_fst, ConnIoQh3.bodyOn_resume]
  simp only [State.resume]
  split
  · rename_i pending
    have point : (({ s with short := false } : State).sendInChunks).point =
      .chunk s.conn.totalSentBytes :=
      if_pos pending
    exact loop_window _ _ window (Nat.le_refl _) point rfl
  · rename_i complete
    have nothing : s.conn.unsent = [] := List.drop_eq_nil_of_le (Nat.not_lt.mp complete)
    rw [nothing, List.take_nil, List.append_nil]
    exact ⟨_, ⟨[], .refl _⟩, idle, rfl, rfl⟩

/-- So is a response that is sent into a window. -/
theorem sendResponse_window (s : State) (streamId : Int) (response : ConnIoReqRes)
    (alternateProtocol : Qstring) (window : Nat) :
    let conn : ConnIoQh3 := { s.conn with streamId, httpResponse := response }
    ∃ t, Calls (s.sendResponse streamId response) t ∧ t.point = .idle ∧
      t.conn = (conn.sendResponse alternateProtocol window).1 ∧
      t.stream.items = bodyOn streamId (conn.sendResponse alternateProtocol window).2 := by
  intro conn
  obtain ⟨writes, sent, body, _⟩ := conn.sendResponse_spec alternateProtocol window
  have header : bodyOn streamId
    (.response conn.streamId (responseFields alternateProtocol conn.responseSent) :: writes) =
      conn.responseSent.data.take window := body
  rw [sent, header]
  have filled :
      (if response.data.length = 0 then response.setPayload (Qstring.literal "\x7b\x7d")
        else response) =
      conn.responseSent := @ConnIoQh3.responseSent_eq conn
  have something : conn.responseSent.data ≠ [] := payloadSent_ne response.data
  simp only [State.sendResponse, filled]
  split
  · rename_i small
    generalize fresh : ({ conn := { s.conn with
      streamId, httpResponse := conn.responseSent, totalSentBytes := 0 }
                          point := .atOnce } : State) = u
    have point : u.point = .atOnce := by rw [← fresh]
    have offered : u.offered = (conn.responseSent.data, true) := by
      rw [offered_atOnce point, ← fresh]
      rfl
    have open_ : u.short = false := by rw [← fresh]
    have new : u.stream.items = [] := by rw [← fresh]
    have step : machine.Step u (.sendBody (.accepted (min window conn.responseSent.data.length)))
        (u.take (.accepted (min window conn.responseSent.data.length))) := by
      refine ⟨?_, ?_⟩
      · simp only [State.enabled, point, ne_eq, reduceCtorEq, not_false_eq_true, decide_true,
          OutStream.Outcome.fits, OutStream.Outcome.count, offered, Bool.true_and, open_,
          Bool.not_false, decide_false, Bool.or_false, Bool.and_true, decide_eq_true_eq]
        exact Nat.min_le_right _ _
      · simp only [State.next, State.sendBody, point]
    refine ⟨_, .cons step ⟨[], .refl _⟩, rfl, ?_, ?_⟩
    · rw [← fresh, List.length_take]
      simp [State.take, OutStream.Outcome.count, conn]
    · change u.stream.items ++ u.offered.1.take (min window conn.responseSent.data.length) = _
      rw [new, offered, List.nil_append, List.take_eq_take_iff]
      dsimp only
      omega
  · generalize fresh : ({ conn := { s.conn with
      streamId, httpResponse := conn.responseSent, totalSentBytes := 0 } } :
      State) = u
    have unsent : u.conn.unsent = conn.responseSent.data := by
      rw [← fresh]
      rfl
    have point : u.sendInChunks.point = .chunk u.sendInChunks.conn.totalSentBytes := by
      refine if_pos ?_
      rw [← fresh]
      exact List.length_pos_iff.mpr something
    have open_ : u.sendInChunks.short = false := by rw [← fresh]; rfl
    obtain ⟨t, calls, idle, connT, itemsT⟩ :=
      loop_window _ u.sendInChunks window (Nat.le_refl _) point open_
    change t.conn = { u.conn with
      totalSentBytes := u.conn.totalSentBytes + (u.conn.unsent.take window).length } at connT
    change t.stream.items = u.stream.items ++ u.conn.unsent.take window at itemsT
    refine ⟨t, calls, idle, ?_, ?_⟩
    · rw [connT, unsent, ← fresh, Nat.zero_add]
    · rw [itemsT, unsent, ← fresh, List.nil_append]

end Gearsdk.ChunkedResponse
