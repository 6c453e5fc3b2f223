import Gearsdk.Qh3client

/-! A request of the helper: one attempt after the other, each with a client of
its own, until a response was received or the retry limit is reached. -/
namespace Gearsdk.Qh3clientHelper
open Qh3client

structure Qh3ReqObj where
  host : Qstring
  data : ConnIoReqRes
  asyncCb : Bool
  finalizeCb : Bool
  retry : Int := 0

/-- A call of one of the two callbacks of a request. -/
inductive Call where
  | asyncCb (response : ResponseCb)
  | finalizeCb

def Call.isAsyncCb : Call → Bool
  | .asyncCb _ => true
  | .finalizeCb => false

def Call.isFinalizeCb (call : Call) : Bool := !call.isAsyncCb

structure Completion where
  calls : List Call := []
  attempts : Nat := 0

def respondWithEmptyResponse (request : Qh3ReqObj) : List Call :=
  if request.asyncCb then [.asyncCb ⟨{}, false⟩] else []

/-- The loop of `run_internal` with the number of rounds that are left. A client
without a connection record leaves `response_received` as it was. -/
def attemptFrom (request : Qh3ReqObj) (attempt : Nat → Attempt) : Nat → Nat → Bool → Completion
  | 0, _, _ => {}
  | left + 1, x, responseReceived =>
      let newClient : Qh3client :=
        { host := request.host, httpRequest := request.data, responseCb := request.asyncCb }
      let (newClient, calls) := sendRequest newClient (attempt x)
      let responseReceived :=
        (newClient.connIo.map ConnIoQh3Client.resReceived).getD responseReceived
      let calls := calls.map Call.asyncCb
      let calls :=
        if (responseReceived || decide ((x : Int) = request.retry)) && !responseReceived then
          calls ++ respondWithEmptyResponse request
        else calls
      if responseReceived then { calls, attempts := 1 }
      else
        let rest := attemptFrom request attempt left (x + 1) responseReceived
        { calls := calls ++ rest.calls, attempts := rest.attempts + 1 }

def runInternal (request : Qh3ReqObj) (attempt : Nat → Attempt) : Completion :=
  let completion := attemptFrom request attempt (request.retry + 1).toNat 0 false
  { completion with calls := completion.calls ++ if request.finalizeCb then [.finalizeCb] else [] }

/-- What is promised of a request with the given outcomes of its attempts: each
callback that is set is called once, the retry limit is kept, and a finished
attempt hands over the message that it received. -/
structure Completes (request : Qh3ReqObj) (attempt : Nat → Attempt) : Prop where
  answered_once : request.asyncCb = true →
    (runInternal request attempt).calls.countP Call.isAsyncCb = 1
  finalized_once : request.finalizeCb = true →
    (runInternal request attempt).calls.countP Call.isFinalizeCb = 1
  bounded : (runInternal request attempt).attempts ≤ (request.retry + 1).toNat
  answers : request.asyncCb = true → ∀ x < (runInternal request attempt).attempts, ∀ before after,
    (attempt x).events = before ++ .finished :: after →
      .asyncCb ⟨message before, before.any H3Event.isData⟩ ∈ (runInternal request attempt).calls

/-- The events up to the first attempt that receives data, or of all attempts. -/
def eventsFrom (attempt : Nat → Attempt) : Nat → Nat → List H3Event
  | 0, _ => []
  | left + 1, x =>
      (attempt x).events ++
        if (attempt x).events.any H3Event.isData then [] else eventsFrom attempt left (x + 1)

/-- The attempts up to the first that receives data finish once, or not at all
if none does. -/
def Balanced (retry : Int) (attempt : Nat → Attempt) : Prop :=
  let events := eventsFrom attempt (retry + 1).toNat 0
  0 ≤ retry ∧ events.countP H3Event.isFinished = if events.any H3Event.isData then 1 else 0

/-- Where the stream of a request is. -/
inductive StreamPhase where
  | waiting | answering | over
  deriving DecidableEq

/-- The order in which the events of one stream come: headers first and perhaps
last, data between them, and nothing once the stream is finished or reset. -/
def follows : StreamPhase → H3Event → Option StreamPhase
  | .waiting, .headers _ | .answering, .headers _ | .answering, .data _ => some .answering
  | .answering, .finished | .waiting, .reset | .answering, .reset => some .over
  | phase, .priorityUpdate | phase, .goaway => some phase
  | _, _ => none

def LegalOrder (events : List H3Event) : Prop := (events.foldlM follows .waiting).isSome = true

instance : Decidable (LegalOrder events) := inferInstanceAs (Decidable (_ = true))

variable {request : Qh3ReqObj} {attempt : Nat → Attempt} {left x : Nat}

/-- One round of the loop, in terms of the events of its attempt. -/
theorem attemptFrom_succ (request : Qh3ReqObj) (attempt : Nat → Attempt) (left x : Nat) :
    attemptFrom request attempt (left + 1) x false =
      let calls := (poll request.asyncCb {} (attempt x).events).2.map Call.asyncCb
      if (attempt x).events.any H3Event.isData then { calls, attempts := 1 }
      else
        let rest := attemptFrom request attempt left (x + 1) false
        let last := if (x : Int) = request.retry then respondWithEmptyResponse request else []
        { calls := calls ++ last ++ rest.calls, attempts := rest.attempts + 1 } := by
  simp only [attemptFrom, sendRequest_calls, sendRequest_resReceived]
  cases (attempt x).events.any H3Event.isData with
  | true => simp
  | false =>
    simp only [Bool.false_or, Bool.not_false, Bool.and_true, decide_eq_true_eq, Bool.false_eq_true,
      if_false]
    split <;> simp

theorem countP_answers (events : List H3Event) :
    ((poll true {} events).2.map Call.asyncCb).countP Call.isAsyncCb =
      events.countP H3Event.isFinished := by
  rw [← calls_poll {} events, List.countP_map]
  exact List.countP_eq_length.mpr fun _ _ => rfl

/-- Every finished event makes a call of `async_cb`; without any data there is
one more, after the last attempt. -/
theorem answers_attemptFrom (given : request.asyncCb = true)
    (limit : (x + left : Int) = request.retry + 1) :
    (attemptFrom request attempt left x false).calls.countP Call.isAsyncCb =
      (eventsFrom attempt left x).countP H3Event.isFinished +
        if (eventsFrom attempt left x).any H3Event.isData ∨ left = 0 then 0 else 1 := by
  induction left generalizing x with
  | zero => rfl
  | succ left ih =>
    rw [attemptFrom_succ, eventsFrom]
    cases data : (attempt x).events.any H3Event.isData with
    | true =>
      simp only [given, if_true, countP_answers, List.append_nil, data, true_or, Nat.add_zero]
    | false =>
      have rest := ih (x := x + 1) (by omega)
      simp only [given, Bool.false_eq_true, if_false, List.countP_append, countP_answers, rest,
        List.any_append, data, Bool.false_or, respondWithEmptyResponse, if_true]
      have last : (x : Int) = request.retry ↔ left = 0 := by omega
      by_cases final : left = 0
      · subst final
        simp [last, eventsFrom, Call.isAsyncCb]
      · simp only [last, final, if_false, or_false]
        simp
        omega

theorem attempts_attemptFrom (request : Qh3ReqObj) (attempt : Nat → Attempt) (left x : Nat) :
    (attemptFrom request attempt left x false).attempts ≤ left := by
  induction left generalizing x with
  | zero => exact Nat.le_refl _
  | succ left ih =>
    rw [attemptFrom_succ]
    split
    · exact Nat.succ_le_succ (Nat.zero_le _)
    · exact Nat.succ_le_succ (ih (x + 1))

theorem answer_message (before after : List H3Event) :
    (⟨message before, before.any H3Event.isData⟩ : ResponseCb) ∈
    (poll true {} (before ++ .finished :: after)).2 := by
  have member := answer_poll {} before after
  rw [response_poll, resReceived_poll] at member
  simpa [message] using member

/-- The message of a finished attempt is handed over. -/
theorem answered_attemptFrom (given : request.asyncCb = true) (later : x ≤ y)
    (made : y < x + (attemptFrom request attempt left x false).attempts)
    (finished : (attempt y).events = before ++ .finished :: after) :
    .asyncCb ⟨message before,
      before.any H3Event.isData⟩ ∈ (attemptFrom request attempt left x false).calls := by
  induction left generalizing x with
  | zero =>
    simp only [attemptFrom] at made
    omega
  | succ left ih =>
    rw [attemptFrom_succ] at made ⊢
    have here : y = x → .asyncCb ⟨message before, before.any H3Event.isData⟩ ∈
        (poll request.asyncCb {} (attempt x).events).2.map Call.asyncCb := by
      rintro rfl
      rw [given, finished]
      exact List.mem_map_of_mem (answer_message before after)
    split
    · rename_i data
      simp only [data, if_true] at made
      exact here (by omega)
    · rename_i data
      simp only [data, Bool.false_eq_true, if_false] at made
      rcases Nat.eq_or_lt_of_le later with same | after
      · exact List.mem_append_left _ (List.mem_append_left _ (here same.symm))
      · exact List.mem_append_right _ (ih after (by omega))

theorem finalizes_attemptFrom (request : Qh3ReqObj) (attempt : Nat → Attempt) (left x : Nat) :
    (attemptFrom request attempt left x false).calls.countP Call.isFinalizeCb = 0 := by
  have answers : ∀ calls : List ResponseCb, (calls.map Call.asyncCb).countP Call.isFinalizeCb = 0 := by
    intro calls
    simp [List.countP_map, Call.isFinalizeCb, Call.isAsyncCb, Function.comp_def]
  induction left generalizing x with
  | zero => rfl
  | succ left ih =>
    rw [attemptFrom_succ]
    split
    · exact answers _
    · simp only [List.countP_append, answers, ih, respondWithEmptyResponse]
      split
      · split <;> rfl
      · rfl

theorem once_iff (given : request.asyncCb = true) :
    (runInternal request attempt).calls.countP Call.isAsyncCb = 1 ↔
      Balanced request.retry attempt := by
  have final : (if request.finalizeCb then [Call.finalizeCb] else []).countP Call.isAsyncCb = 0 := by
    split <;> rfl
  simp only [runInternal, Balanced, List.countP_append, final, Nat.add_zero]
  rcases Int.lt_or_le request.retry 0 with negative | limit
  · have none : (request.retry + 1).toNat = 0 := by omega
    simp only [none, attemptFrom, List.countP_nil]
    omega
  · rw [answers_attemptFrom given (by omega)]
    have some : (request.retry + 1).toNat ≠ 0 := by omega
    simp only [some, or_false]
    split <;> omega

namespace Sample

def answered (events : List H3Event) : Attempt :=
  .looped [.recvCb { events }, .recvCb { isClosed := true }] ⟨_,
    List.mem_cons_of_mem _ List.mem_cons_self, rfl⟩

def retried : Qh3ReqObj :=
  { host := Qstring.literal "localhost", data := {}, asyncCb := true, finalizeCb := true,
    retry := 1 }

/-- The server answers without a body. -/
def noContent : Nat → Attempt :=
  fun _ => answered [.headers [(Qstring.literal ":status", Qstring.literal "204")], .finished]

/-- The server starts to answer and resets the stream. -/
def cutOff : Nat → Attempt :=
  fun _ => answered [.headers [], .data [Qstring.literal "part"], .reset]

end Sample

end Gearsdk.Qh3clientHelper
