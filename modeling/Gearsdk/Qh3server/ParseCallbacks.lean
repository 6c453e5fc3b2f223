import Gearsdk.Json.Text
import Gearsdk.Qh3server.PluginResponses

/-! Requests on their way to the script. The event that is queued for the script
thread refers to the connection id, the path and the payload inside the connection
and to the text of the headers inside the call of `parse` that queues it. The
network thread goes on with all of these while the event waits. -/
namespace Gearsdk
open Std

/-- An object with one member for each header, under the decimal digits of its key. -/
def ConnIoReqRes.headersToJson (record : ConnIoReqRes) : Qstring :=
  Json.getJsonString (.object (record.headers.toList.map fun entry =>
    (Qstring.decimal entry.1, .object
      [(Qstring.literal "name", .string entry.2.name),
        (Qstring.literal "value", .string entry.2.value)])))

namespace ParseCallbacks
open Transition PluginResponses

/-- `payloadNumber` counts how often the payload of the request was set. Setting
it clears the buffer, which may move. -/
structure Connection where
  cid : Qstring
  io : ConnIoQh3 := {}
  payloadNumber : Nat := 0

/-- A call of `parse` that has not returned, with its local text of the headers. -/
structure Frame where
  number : Nat
  headersJsonString : Qstring

/-- Where a field of a queued event points. -/
inductive Reference where
  | cid (conn : Nat)
  | path (conn : Nat)
  | payload (conn payloadNumber : Nat)
  | headersJsonString (number : Nat)
  deriving DecidableEq

/-- A request when it was dispatched. -/
structure Request where
  cid : Qstring
  path : Qstring
  body : Qstring
  headers : Qstring
  deriving DecidableEq

/-- The payload of type 5. The request it was made for is beside it for the
statements only. -/
structure CallbackPayload where
  cid : Reference
  path : Reference
  buffer : Reference
  len : Nat
  headersBuffer : Reference
  headersBufferSize : Nat
  request : Request

/-- What the script was called with: the texts that the references led to, and the
connection id as a reference still, with what it led to. -/
structure Received where
  request : Request
  cid : Reference
  cidThere : Option Qstring
  path : Option Qstring
  body : Option Qstring
  headers : Option Qstring

structure State where
  connections : TreeMap Nat Connection := ∅
  created : Nat := 0
  parsing : Option Frame := none
  calls : Nat := 0
  queue : List CallbackPayload := []
  received : List Received := []
  /-- For every response, its request and the connection id that it was queued with. -/
  responded : List (Request × Option Qstring) := []
  packets : List (Option Qstring × Qstring) := []

inductive Event where
  | createConn (cid : Qstring)
  | poll (conn : Nat) (streamId : Int) (event : H3Event) (window : Nat)
  | parseReturns
  | closed (conn : Nat)
  | notifyServer (window : Nat)
  | returnCb
  | trySendResponse (index : Nat) (payload : Qstring)

namespace State

def read (s : State) : Reference → Option Qstring
  | .cid conn => (s.connections[conn]?).map Connection.cid
  | .path conn => do
      let connection ← s.connections[conn]?
      let path ← connection.io.httpRequest.getHeader (Qstring.literal ":path")
      return path.value
  | .payload conn payloadNumber => do
      let connection ← s.connections[conn]?
      if connection.payloadNumber = payloadNumber then return connection.io.httpRequest.data
        else none
  | .headersJsonString number => do
      let frame ← s.parsing
      if frame.number = number then return frame.headersJsonString else none

def update (s : State) (conn : Nat) (connection : Connection) : State :=
  { s with connections := s.connections.insert conn connection }

/-- `on_serevr_parse`, for a request with the header of its path. -/
def onServerParse (s : State) (conn : Nat) (connection : Connection) (path : Header) : State :=
  let record := connection.io.httpRequest
  let headersJsonString := record.headersToJson
  { s with
    parsing := some { number := s.calls, headersJsonString }
    calls := s.calls + 1
    queue := s.queue ++
      [{ cid := .cid conn
         path := .path conn
         buffer := .payload conn connection.payloadNumber
         len := record.data.length
         headersBuffer := .headersJsonString s.calls
         headersBufferSize := headersJsonString.length
         request := { cid := connection.cid, path := path.value, body := record.data,
                      headers := headersJsonString } }] }

def finished (alternateProtocol : Qstring) (s : State) (conn : Nat) (connection : Connection)
    (window : Nat) : State :=
  let s := s.update conn connection
  match parse connection.io, connection.io.httpRequest.getHeader (Qstring.literal ":path") with
  | .parseAsync, some path => s.onServerParse conn connection path
  | _, _ =>
    s.update conn { connection with io := (connection.io.sendResponse alternateProtocol window).1 }

def poll (alternateProtocol : Qstring) (s : State) (conn : Nat) (connection : Connection)
    (streamId : Int) (event : H3Event) (window : Nat) : State :=
  let io := connection.io.receive streamId event
  match event with
  | .finished => s.finished alternateProtocol conn { connection with io } window
  | .data reads =>
      s.update conn { connection with io, payloadNumber := connection.payloadNumber + reads.length }
  | .headers _ | .reset | .priorityUpdate | .goaway => s.update conn { connection with io }

def findConn (s : State) (cid : Qstring) : Option (Nat × Connection) :=
  s.connections.toList.find? fun entry => entry.2.cid = cid

/-- A packet whose connection id was not there when it was queued finds nothing. -/
def notifyServer (alternateProtocol : Qstring) (s : State) (window : Nat) : State :=
  match s.packets with
  | [] => s
  | (cid, payload) :: packets =>
      let s := { s with packets }
      match cid.bind s.findConn with
      | none => s
      | some (conn, connection) =>
          let io := { connection.io with
            httpResponse := connection.io.httpResponse.setPayload payload }
          s.update conn { connection with io := (io.sendResponse alternateProtocol window).1 }

/-- The path is read up to its end, the other two up to the length that was queued. -/
def returnCb (s : State) : State :=
  match s.queue with
  | [] => s
  | payload :: queue =>
      { s with
        queue
        received := s.received ++
          [{ request := payload.request
             cid := payload.cid
             cidThere := s.read payload.cid
             path := (s.read payload.path).map Qstring.cString
             body := (s.read payload.buffer).map (·.take payload.len)
             headers := (s.read payload.headersBuffer).map (·.take payload.headersBufferSize) }] }

def trySendResponse (s : State) (index : Nat) (payload : Qstring) : State :=
  match s.received[index]? with
  | none => s
  | some r =>
      let cid := s.read r.cid
      { s with responded := s.responded ++ [(r.request, cid)], packets := s.packets ++ [(cid, payload)] }

/-- The network thread does nothing else while it is inside `parse`. -/
def enabled (s : State) : Event → Bool
  | .createConn _ | .notifyServer _ => s.parsing.isNone
  | .poll conn _ _ _ | .closed conn => s.parsing.isNone && s.connections.contains conn
  | .parseReturns => s.parsing.isSome
  | .returnCb => !s.queue.isEmpty
  | .trySendResponse index _ => decide (index < s.received.length)

def next (alternateProtocol : Qstring) (s : State) : Event → State
  | .createConn cid => { s.update s.created { cid } with created := s.created + 1 }
  | .poll conn streamId event window =>
      match s.connections[conn]? with
      | none => s
      | some connection => s.poll alternateProtocol conn connection streamId event window
  | .parseReturns => { s with parsing := none }
  | .closed conn => { s with connections := s.connections.erase conn }
  | .notifyServer window => s.notifyServer alternateProtocol window
  | .returnCb => s.returnCb
  | .trySendResponse index payload => s.trySendResponse index payload

end State

def machine (alternateProtocol : Qstring) : Machine State Event Empty where
  init := {}
  enabled s event := s.enabled event = true
  next s event := .ok (s.next alternateProtocol event)

instance (alternateProtocol : Qstring) (s : State) (event : Event) :
    Decidable ((machine alternateProtocol).enabled s event) :=
  inferInstanceAs (Decidable (_ = true))

/-- The script was called with the request as it was dispatched. -/
structure Received.Whole (r : Received) : Prop where
  cid : r.cidThere = some r.request.cid
  path : r.path = some r.request.path
  body : r.body = some r.request.body
  headers : r.headers = some r.request.headers

/-- So it was in every call, and each response goes back with the connection id of
its request. -/
structure Intact (s : State) : Prop where
  received : ∀ r ∈ s.received, r.Whole
  responded : ∀ entry ∈ s.responded, entry.2 = some entry.1.cid

/-- A callback runs before the call of `parse` that queued it returns, and the
script answers while the connection is there. -/
def Timely (s : State) : Event → Prop
  | .returnCb => ∀ payload, s.queue.head? = some payload →
      ∃ frame, s.parsing = some frame ∧ payload.headersBuffer = .headersJsonString frame.number
  | .trySendResponse index _ => ∀ r, s.received[index]? = some r →
      ∃ conn, r.cid = .cid conn ∧ conn ∈ s.connections
  | _ => True

/-! ### What a step does -/

/-- The connections of `t` are connections of `s`, perhaps with more received on
them, and new ones. -/
structure Continues (s t : State) : Prop where
  live : (∀ conn ∈ s.connections, conn < s.created) → ∀ conn ∈ t.connections, conn < t.created
  later : s.created ≤ t.created
  older : ∀ conn connection, conn < s.created → t.connections[conn]? = some connection →
    ∃ before, s.connections[conn]? = some before ∧ connection.cid = before.cid

inductive Effect (s : State) : Event → State → Prop where
  | network {e : Event} {t : State} (outside : s.parsing = none) (continues : Continues s t)
      (same : t = { s with connections := t.connections, created := t.created, packets := t.packets })
      (untimed : ∀ u, Timely u e) : Effect s e t
  | dispatches {conn : Nat} {streamId : Int} {window : Nat} {connection : Connection}
      {path : Header}
      (outside : s.parsing = none) (continues : Continues s (s.update conn connection))
      (present : connection.io.httpRequest.getHeader (Qstring.literal ":path") = some path) :
      Effect s (.poll conn streamId .finished window)
        ((s.update conn connection).onServerParse conn connection path)
  | returns : Effect s .parseReturns { s with parsing := none }
  | calls {payload : CallbackPayload} {queue : List CallbackPayload}
      (waiting : s.queue = payload :: queue) :
      Effect s .returnCb s.returnCb
  | responds {index : Nat} {r : Received} {payload : Qstring} (held : s.received[index]? = some r) :
      Effect s (.trySendResponse index payload) (s.trySendResponse index payload)

variable {alternateProtocol : Qstring} {s t : State} {e : Event} {connection before : Connection}

theorem Continues.refl (s : State) : Continues s s :=
  ⟨id, Nat.le_refl _, fun _ connection _ found => ⟨connection, found, rfl⟩⟩

theorem continues_update (found : s.connections[conn]? = some before)
    (cid : connection.cid = before.cid) :
    Continues s (s.update conn connection) where
  live live other member := by
    rcases (OrderedMap.mem_insert_iff _ _ _ _).mp member with rfl | old
    · exact live _ (OrderedMap.mem_of_lookup found)
    · exact live other old
  later := Nat.le_refl _
  older other after _ lookup := by
    simp only [State.update] at lookup
    rw [OrderedMap.lookup_insert] at lookup
    split at lookup
    · rename_i same
      cases Option.some.inj lookup
      exact ⟨before, same ▸ found, cid⟩
    · exact ⟨after, lookup, rfl⟩

theorem continues_createConn (s : State) (cid : Qstring) :
    Continues s { s.update s.created { cid } with created := s.created + 1 } where
  live live other member := by
    rcases (OrderedMap.mem_insert_iff _ _ _ _).mp member with rfl | old
    · exact Nat.lt_succ_self _
    · exact Nat.lt_succ_of_lt (live other old)
  later := Nat.le_succ _
  older other after early lookup := by
    simp only [State.update] at lookup
    rw [OrderedMap.lookup_insert, if_neg (Nat.ne_of_gt early)] at lookup
    exact ⟨after, lookup, rfl⟩

theorem continues_closed (s : State) (conn : Nat) :
    Continues s { s with connections := s.connections.erase conn } where
  live live other member := live other ((OrderedMap.mem_erase_iff _ _ _).mp member).2
  later := Nat.le_refl _
  older other after _ lookup := by
    simp only at lookup
    rw [OrderedMap.lookup_erase] at lookup
    split at lookup
    · contradiction
    · exact ⟨after, lookup, rfl⟩

theorem Continues.trans (first : Continues s t) (second : Continues t u) : Continues s u where
  live live := second.live (first.live live)
  later := Nat.le_trans first.later second.later
  older conn connection early found := by
    obtain ⟨middle, there, same⟩ :=
      second.older conn connection (Nat.lt_of_lt_of_le early first.later) found
    obtain ⟨before, here, same'⟩ := first.older conn middle early there
    exact ⟨before, here, same.trans same'⟩

theorem poll_effect (outside : s.parsing = none) (found : s.connections[conn]? = some before) :
    Effect s (.poll conn streamId event window)
      (s.poll alternateProtocol conn before streamId event window) := by
  have update (connection : Connection) (cid : connection.cid = before.cid) :
      Effect s (.poll conn streamId event window) (s.update conn connection) :=
    .network outside (continues_update found cid) rfl fun _ => trivial
  cases event with
  | headers | data | reset | priorityUpdate | goaway => exact update _ rfl
  | finished =>
    let connection := { before with io := before.io.receive streamId .finished }
    have continues : Continues s (s.update conn connection) := continues_update found rfl
    simp only [State.poll, State.finished]
    split
    · rename_i path _ present
      exact .dispatches outside continues present
    · have here : (s.update conn connection).connections[conn]? = some connection := by
        simp only [State.update]
        rw [OrderedMap.lookup_insert, if_pos rfl]
      exact .network outside (continues.trans (continues_update here rfl)) rfl fun _ => trivial

theorem notifyServer_effect (outside : s.parsing = none) :
    Effect s (.notifyServer window) (s.notifyServer alternateProtocol window) := by
  cases packets : s.packets with
  | nil =>
    simp only [State.notifyServer, packets]
    exact .network outside (.refl s) rfl fun _ => trivial
  | cons packet rest =>
    obtain ⟨cid, payload⟩ := packet
    simp only [State.notifyServer, packets]
    have dropped : Continues s { s with packets := rest } :=
      ⟨id, Nat.le_refl _, fun _ connection _ found => ⟨connection, found, rfl⟩⟩
    cases found : cid.bind ({ s with packets := rest } : State).findConn with
    | none => exact .network outside dropped rfl fun _ => trivial
    | some entry =>
      obtain ⟨conn, connection⟩ := entry
      obtain ⟨id, _, search⟩ := Option.bind_eq_some_iff.mp found
      have live := TreeMap.mem_toList_iff_getElem?_eq_some.mp (List.mem_of_find?_eq_some search)
      exact .network outside (dropped.trans (continues_update live rfl)) rfl fun _ => trivial

theorem effect_of_step (step : (machine alternateProtocol).Step s e t) : Effect s e t := by
  obtain ⟨possible, moved⟩ := step
  change s.enabled e = true at possible
  cases Except.ok.inj moved
  cases e with
  | createConn cid =>
    exact .network (by simpa [State.enabled] using possible) (continues_createConn s cid) rfl
      fun _ => trivial
  | poll conn streamId event window =>
    simp only [State.enabled, Bool.and_eq_true, Option.isNone_iff_eq_none] at possible
    obtain ⟨before, found⟩ := OrderedMap.mem_iff_lookup.mp (TreeMap.mem_iff_contains.mpr possible.2)
    simp only [State.next, found]
    exact poll_effect possible.1 found
  | parseReturns => exact .returns
  | closed conn =>
    simp only [State.enabled, Bool.and_eq_true, Option.isNone_iff_eq_none] at possible
    exact .network possible.1 (continues_closed s conn) rfl fun _ => trivial
  | notifyServer window => exact notifyServer_effect (by simpa [State.enabled] using possible)
  | returnCb =>
    cases waiting : s.queue with
    | nil => simp [State.enabled, waiting] at possible
    | cons payload queue => exact .calls waiting
  | trySendResponse index payload =>
    have inside : index < s.received.length := by simpa [State.enabled] using possible
    exact .responds (List.getElem?_eq_getElem inside)

/-! ### What every run keeps -/

/-- The reference is to the connection id of the request, as long as its connection
is there. -/
def Names (s : State) (reference : Reference) (cid : Qstring) : Prop :=
  ∃ conn, reference = .cid conn ∧ conn < s.created ∧
    ∀ connection, s.connections[conn]? = some connection → connection.cid = cid

/-- All that the callback reads is there, and is as it was. -/
structure Readable (s : State) (payload : CallbackPayload) : Prop where
  cid : s.read payload.cid = some payload.request.cid
  path : (s.read payload.path).map Qstring.cString = some payload.request.path
  buffer : (s.read payload.buffer).map (·.take payload.len) = some payload.request.body
  headers : (s.read payload.headersBuffer).map (·.take payload.headersBufferSize) =
    some payload.request.headers

structure Kept (s : State) : Prop where
  live : ∀ conn ∈ s.connections, conn < s.created
  inside : ∀ frame, s.parsing = some frame → frame.number < s.calls
  queued : ∀ payload ∈ s.queue, Names s payload.cid payload.request.cid
  received : ∀ r ∈ s.received, Names s r.cid r.request.cid
  made : ∀ payload ∈ s.queue, ∃ number < s.calls, payload.headersBuffer = .headersJsonString number
  /-- What was queued by the call of `parse` that has not returned. -/
  fresh : ∀ payload ∈ s.queue, ∀ frame, s.parsing = some frame →
    payload.headersBuffer = .headersJsonString frame.number → Readable s payload

theorem Names.continues (names : Names s reference cid) (continues : Continues s t) :
    Names t reference cid := by
  obtain ⟨conn, rfl, early, same⟩ := names
  refine ⟨conn, rfl, Nat.lt_of_lt_of_le early continues.later, fun connection found => ?_⟩
  obtain ⟨before, there, kept⟩ := continues.older conn connection early found
  exact kept.trans (same before there)

theorem Kept.init : Kept {} where
  live _ member := absurd member TreeMap.not_mem_emptyc
  inside _ parsing := nomatch parsing
  queued _ member := nomatch member
  received _ member := nomatch member
  made _ member := nomatch member
  fresh _ member := nomatch member

theorem Kept.network (kept : Kept s) (outside : s.parsing = none) (continues : Continues s t)
    (same : t = { s with
    connections := t.connections, created := t.created, packets := t.packets }) : Kept t := by
  have parsing : t.parsing = none := by rw [same]; exact outside
  have queue : t.queue = s.queue := by rw [same]
  have received : t.received = s.received := by rw [same]
  have calls : t.calls = s.calls := by rw [same]
  constructor
  case live => exact continues.live kept.live
  case inside => simp [parsing]
  case queued =>
    rw [queue]
    exact fun payload member => (kept.queued payload member).continues continues
  case received =>
    rw [received]
    exact fun r member => (kept.received r member).continues continues
  case made =>
    rw [queue, calls]
    exact kept.made
  case fresh => simp [parsing]

/-- While `parse` has not returned, its event can be read. -/
theorem readable_onServerParse {path : Header}
    (found : s.connections[conn]? = some connection)
    (present : connection.io.httpRequest.getHeader (Qstring.literal ":path") = some path)
    (queued : (s.onServerParse conn connection path).queue = s.queue ++ [payload]) :
    Readable (s.onServerParse conn connection path) payload := by
  cases List.append_cancel_left queued
  constructor <;> simp only [State.read, State.onServerParse, found, Option.map_some]
  · simp [present, Qstring.cString_of_nul_free path.clean.2]
  · simp
  · simp

theorem Kept.dispatches {path : Header} (kept : Kept s)
    (continues : Continues s (s.update conn connection))
    (present : connection.io.httpRequest.getHeader (Qstring.literal ":path") = some path) :
    Kept ((s.update conn connection).onServerParse conn connection path) := by
  have found : (s.update conn connection).connections[conn]? = some connection := by
    simp only [State.update]
    rw [OrderedMap.lookup_insert, if_pos rfl]
  have early : conn < s.created := continues.live kept.live conn (OrderedMap.mem_of_lookup found)
  constructor
  case live => exact continues.live kept.live
  case inside =>
    intro frame parsing
    cases Option.some.inj parsing
    exact Nat.lt_succ_self _
  case queued =>
    intro payload member
    rcases List.mem_append.mp member with old | new
    · obtain ⟨other, refers, below, same⟩ := (kept.queued payload old).continues continues
      exact ⟨other, refers, below, same⟩
    · cases List.mem_singleton.mp new
      refine ⟨conn, rfl, early, fun other there => ?_⟩
      rw [Option.some.inj (there.symm.trans found)]
  case received =>
    intro r member
    obtain ⟨other, refers, below, same⟩ := (kept.received r member).continues continues
    exact ⟨other, refers, below, same⟩
  case made =>
    intro payload member
    rcases List.mem_append.mp member with old | new
    · obtain ⟨number, below, refers⟩ := kept.made payload old
      exact ⟨number, Nat.lt_succ_of_lt below, refers⟩
    · cases List.mem_singleton.mp new
      exact ⟨s.calls, Nat.lt_succ_self _, rfl⟩
  case fresh =>
    intro payload member frame parsing refers
    cases Option.some.inj parsing
    rcases List.mem_append.mp member with old | new
    · -- an earlier event refers to an earlier call
      obtain ⟨number, below, refers'⟩ := kept.made payload old
      rw [refers] at refers'
      cases refers'
      exact absurd below (Nat.lt_irrefl _)
    · cases List.mem_singleton.mp new
      exact readable_onServerParse found present rfl

theorem Kept.calls (kept : Kept s) (waiting : s.queue = payload :: queue) : Kept s.returnCb := by
  have later : ∀ other ∈ queue, other ∈ s.queue := by
    intro other member
    rw [waiting]
    exact List.mem_cons_of_mem _ member
  simp only [State.returnCb, waiting]
  constructor
  case live => exact kept.live
  case inside => exact kept.inside
  case queued => exact fun other member => kept.queued other (later other member)
  case received =>
    intro r member
    rcases List.mem_append.mp member with old | new
    · exact kept.received r old
    · cases List.mem_singleton.mp new
      exact kept.queued payload (by simp [waiting])
  case made => exact fun other member => kept.made other (later other member)
  case fresh =>
    intro other member frame parsing refers
    have before := kept.fresh other (later other member) frame parsing refers
    exact ⟨before.cid, before.path, before.buffer, before.headers⟩

theorem Kept.step (kept : Kept s) (effect : Effect s e t) : Kept t := by
  cases effect with
  | network outside continues same => exact kept.network outside continues same
  | dispatches _ continues present => exact kept.dispatches continues present
  | returns =>
    refine { kept with inside := ?_, fresh := ?_ }
    · simp
    · simp
  | calls waiting => exact kept.calls waiting
  | @responds index r payload held =>
    simp only [State.trySendResponse, held]
    exact { kept with fresh := fun other member frame parsing refers =>
      have before := kept.fresh other member frame parsing refers
      ⟨before.cid, before.path, before.buffer, before.headers⟩ }

theorem kept_of_run (run : (machine alternateProtocol).Run es s) : Kept s :=
  Machine.Reaches.invariant (fun kept step => kept.step (effect_of_step step)) run Kept.init

/-! ### Which requests arrive whole -/

theorem intact_init : Intact {} where
  received _ member := nomatch member
  responded _ member := nomatch member

theorem intact_calls (kept : Kept s) (intact : Intact s) (waiting : s.queue = payload :: queue) :
    Intact s.returnCb ↔ Timely s .returnCb := by
  have member : payload ∈ s.queue := by simp [waiting]
  have timely : Timely s .returnCb ↔
      ∃ frame, s.parsing = some frame ∧
        payload.headersBuffer = .headersJsonString frame.number := by
    simp [Timely, waiting]
  rw [timely]
  constructor
  · intro after
    have whole := after.received
    simp only [State.returnCb, waiting] at whole
    have headers := (whole _ (List.mem_append_right _ (List.mem_singleton_self _))).headers
    obtain ⟨number, _, refers⟩ := kept.made payload member
    rw [refers] at headers
    cases parsing : s.parsing with
    | none => simp [State.read, parsing] at headers
    | some frame =>
      by_cases own : frame.number = number
      · exact ⟨frame, rfl, own ▸ refers⟩
      · simp [State.read, parsing, own] at headers
  · rintro ⟨frame, parsing, refers⟩
    have readable := kept.fresh payload member frame parsing refers
    simp only [State.returnCb, waiting]
    refine ⟨fun r listed => ?_, intact.responded⟩
    rcases List.mem_append.mp listed with old | new
    · exact intact.received r old
    · cases List.mem_singleton.mp new
      exact ⟨readable.cid, readable.path, readable.buffer, readable.headers⟩

theorem intact_responds (kept : Kept s) (intact : Intact s) (held : s.received[index]? = some r) :
    Intact (s.trySendResponse index payload) ↔ Timely s (.trySendResponse index payload) := by
  obtain ⟨conn, refers, _, same⟩ := kept.received r (List.mem_of_getElem? held)
  have timely : Timely s (.trySendResponse index payload) ↔ conn ∈ s.connections := by
    simp [Timely, held, refers]
  rw [timely, OrderedMap.mem_iff_lookup]
  simp only [State.trySendResponse, held]
  constructor
  · intro after
    have answer := after.responded _ (List.mem_append_right _ (List.mem_singleton_self _))
    simp only [refers, State.read, Option.map_eq_some_iff] at answer
    obtain ⟨connection, found, _⟩ := answer
    exact ⟨connection, found⟩
  · rintro ⟨connection, found⟩
    refine ⟨intact.received, fun entry listed => ?_⟩
    rcases List.mem_append.mp listed with old | new
    · exact intact.responded entry old
    · cases List.mem_singleton.mp new
      simp only [refers, State.read, found, Option.map_some, same connection found]

theorem intact_step (kept : Kept s) (intact : Intact s) (effect : Effect s e t) :
    Intact t ↔ Timely s e := by
  cases effect with
  | network outside continues same untimed =>
    have received : t.received = s.received := by rw [same]
    have responded : t.responded = s.responded := by rw [same]
    exact iff_of_true ⟨received ▸ intact.received, responded ▸ intact.responded⟩ (untimed s)
  | dispatches | returns => exact iff_of_true ⟨intact.received, intact.responded⟩ trivial
  | calls waiting => exact intact_calls kept intact waiting
  | responds held => exact intact_responds kept intact held

/-- In a run of the server, the script receives every request as it was dispatched,
and its responses go back with the connection id of the request, if and only if
each callback runs before the call of `parse` that queued it returns, and each
response comes while its connection is there. -/
theorem requests_intact_iff (run : (machine alternateProtocol).Run es s) :
    (machine alternateProtocol).Always Intact es ↔ (machine alternateProtocol).Meets Timely es :=
  Machine.always_iff_meets intact_init
    (fun before intact step => intact_step (kept_of_run before) intact (effect_of_step step)) run

def timelyTest (s : State) : Event → Bool
  | .returnCb => s.queue.head?.all fun payload =>
      match s.parsing with
      | some frame => payload.headersBuffer = .headersJsonString frame.number
      | none => false
  | .trySendResponse index _ => s.received[index]?.all fun r =>
      match r.cid with
      | .cid conn => s.connections.contains conn
      | .path _ | .payload _ _ | .headersJsonString _ => false
  | _ => true

theorem timely_of_test (s : State) (e : Event) (passed : timelyTest s e = true) : Timely s e := by
  cases e with
  | returnCb =>
    intro payload head
    simp only [timelyTest, head, Option.all_some] at passed
    split at passed
    · rename_i frame parsing
      exact ⟨frame, parsing, of_decide_eq_true passed⟩
    · contradiction
  | trySendResponse index answer =>
    intro r held
    simp only [timelyTest, held, Option.all_some] at passed
    split at passed
    · rename_i conn refers
      exact ⟨conn, refers, TreeMap.mem_iff_contains.mpr passed⟩
    · contradiction
    · contradiction
    · contradiction
  | _ => trivial

/-- A request for a path with a body. -/
def posted : List Event :=
  [.createConn [7], .poll 0 0 (.headers [(Qstring.literal ":path", Qstring.literal "/user")]) 9,
    .poll 0 0 (.data [[97, 98]]) 9, .poll 0 0 .finished 9]

/-- The script thread is quick, and answers before the connection closes. -/
def promptly : List Event :=
  posted ++ [.returnCb, .parseReturns, .trySendResponse 0 [111, 107], .notifyServer 9, .closed 0]

theorem requests_intact_promptly :
    ∃ s, (machine []).Run promptly s ∧ s.responded.map Prod.snd = [some [7]] ∧
      (machine []).Always Intact promptly := by
  have shown : ((machine []).exec {} promptly).map (fun s => s.responded.map Prod.snd) =
      some [some [7]] := by
    decide +kernel
  obtain ⟨s, run, same⟩ := Machine.exec_observe shown
  have passed : (machine []).checks timelyTest {} promptly = true := by decide +kernel
  have met : (machine []).Meets Timely promptly :=
    fun _ _ _ inside path => Machine.meets_of_checks timely_of_test passed inside path
  exact ⟨s, run, same, (requests_intact_iff run).mpr met⟩

/-- The call of `parse` returns, the connection closes, and then the script thread
comes to the event. -/
def tardily : List Event :=
  posted ++ [.parseReturns, .closed 0, .returnCb]

/-- Nothing that the event refers to is there. -/
theorem request_dangling :
    ∃ s, (machine []).Run tardily s ∧
      s.received.map (fun r => [r.cidThere, r.path, r.body, r.headers]) =
        [[none, none, none, none]] ∧
      ¬ (machine []).Always Intact tardily := by
  have shown : ((machine []).exec {} tardily).map
      (fun s => s.received.map fun r => [r.cidThere, r.path, r.body, r.headers]) =
        some [[none, none, none, none]] := by decide +kernel
  obtain ⟨s, run, same⟩ := Machine.exec_observe shown
  refine ⟨s, run, same, fun always => ?_⟩
  obtain ⟨r, received, nothing⟩ := List.map_eq_singleton_iff.mp same
  have whole := (always tardily s (List.prefix_refl _) run).received r (by simp [received])
  simp [whole.cid] at nothing

end ParseCallbacks
end Gearsdk
