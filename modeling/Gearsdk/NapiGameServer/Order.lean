import Gearsdk.NapiGameServer
import Gearsdk.Roomserver.Observed

/-! The order in which a script hears of the events of one room. Each queue keeps
its own order, and a room's events are spread over them. A callback that takes the
oldest event of its room keeps the order, and finds the room known to the script
if the server's start was heard of before its creation. -/
namespace Gearsdk
open Std Transition

/-- The elements of a list sorted by a key that come first: one more of them is the
least of the others. -/
theorem append_single_prefix_iff (key : α → Nat) {front all : List α} {item : α}
    (sorted : all.Pairwise fun a b => key a < key b) (begun : front <+: all) (member : item ∈ all)
    (fresh : item ∉ front) :
    front ++ [item] <+: all ↔ ∀ other ∈ all, other ∉ front → key item ≤ key other := by
  obtain ⟨tail, rfl⟩ := begun
  obtain ⟨_, sortedTail, apart⟩ := List.pairwise_append.mp sorted
  have inTail : item ∈ tail := (List.mem_append.mp member).resolve_left fresh
  cases tail with
  | nil => contradiction
  | cons first rest =>
    have least := (List.pairwise_cons.mp sortedTail).1
    rw [List.prefix_append_right_inj]
    constructor
    · intro next other inside outside
      obtain ⟨rfl, _⟩ := List.cons_prefix_cons.mp next
      rcases List.mem_cons.mp ((List.mem_append.mp inside).resolve_left outside) with rfl | later
      · exact Nat.le_refl _
      · exact Nat.le_of_lt (least _ later)
    · intro smallest
      have outside : first ∉ front := fun early =>
        Nat.lt_irrefl _ (apart first early first (List.mem_cons_self ..))
      have below := smallest first (List.mem_append_right _ (List.mem_cons_self ..)) outside
      rcases List.mem_cons.mp inTail with rfl | later
      · exact List.cons_prefix_cons.mpr ⟨rfl, List.nil_prefix⟩
      · exact absurd (least _ later) (Nat.not_lt.mpr below)

namespace NapiGameServer

def ofRoom (p : Nat) (payloads : List CallbackPayload) : List CallbackPayload :=
  payloads.filter (·.room = p)

/-- The callbacks of each room were invoked in the order of its events, with none
left out, and none of them was without effect. -/
structure InOrder (s : NapiGameServer) : Prop where
  begun : ∀ p, ofRoom p s.invoked <+: ofRoom p s.emitted
  heeded : s.ignored = []

/-- The payloads in the queues of the eight types of events. -/
def waiting (s : NapiGameServer) : List CallbackPayload :=
  (List.range' 5 8).flatMap s.queue

/-- The callback takes the oldest event of its room that is left in any queue, and
does not take a creation before the start of the server has been heard of. -/
def Due (s : NapiGameServer) (e : Event) : Prop :=
  ∀ type payload, e = .returnCb type → (s.queue type).head? = some payload →
    (∀ later ∈ s.waiting, later.room = payload.room → payload.seq ≤ later.seq) ∧
      (payload.event = .roomEventCreate → s.gameserver.rooms.isSome = true)

/-! ### What a step does -/

inductive Effect (site : Site) (s : NapiGameServer) : Event → NapiGameServer → Prop where
  | starts : Effect site s .onServerStart { s with started := true, startQueue := s.startQueue + 1 }
  | serves {event : Gearsdk.Event} {server : Roomserver}
      (effect : Roomserver.Effect site s.server event server) (silent : s.telling = []) :
      Effect site s (.server event)
        { s with server, telling := told (server.log.drop s.server.log.length) }
  | tells {room : Nat} {event : RoomEvent} {telling : List (Nat × RoomEvent)}
      (next : s.telling = (room, event) :: telling) :
      Effect site s .callThreadsafeFunction (({ s with
        telling } : NapiGameServer).callThreadsafeFunction room event)
  | hearsStart : Effect site s .startCb
      { s with startQueue := s.startQueue - 1, gameserver := s.gameserver.onServerStart }
  | calls {type : Nat} {payload : CallbackPayload} {rest : List CallbackPayload}
      (queue : s.queue type = payload :: rest) :
      Effect site s (.returnCb type)
        { s with
          queue := fun other => if other = type then rest else s.queue other
          gameserver := (s.gameserver.roomEvent payload).1
          invoked := s.invoked ++ [payload]
          ignored := if (s.gameserver.roomEvent payload).2 then s.ignored
            else s.ignored ++ [payload] }

variable {site : Site} {s t : NapiGameServer} {e : Event} {payload other : CallbackPayload}

theorem effect_of_step (step : (machine site).Step s e t) : Effect site s e t := by
  obtain ⟨possible, moved⟩ := step
  change s.enabled e = true at possible
  change next site s e = .ok t at moved
  cases e with
  | onServerStart =>
    cases moved
    exact .starts
  | server event =>
    simp only [enabled, Bool.and_eq_true, List.isEmpty_iff] at possible
    obtain ⟨⟨_, silent⟩, allowed⟩ := possible
    simp only [next] at moved
    cases handled : s.server.next site event with
    | error fault => simp [handled] at moved
    | ok server =>
      simp only [handled] at moved
      cases moved
      exact .serves (Roomserver.step_effect ⟨allowed, handled⟩) silent
  | callThreadsafeFunction =>
    simp only [next] at moved
    split at moved
    · rename_i none_left
      simp [enabled, none_left] at possible
    · rename_i room event telling left
      cases moved
      exact .tells left
  | startCb =>
    cases moved
    exact .hearsStart
  | returnCb type =>
    cases Except.ok.inj moved
    cases queue : s.queue type with
    | nil => simp [enabled, queue] at possible
    | cons payload rest =>
      simp only [returnCb, queue]
      exact .calls queue

/-! ### What every run keeps -/

theorem copied_eq_create {event : RoomEvent} :
    event.copied = .roomEventCreate ↔ event = .roomEventCreate := by
  cases event <;> simp [RoomEvent.copied]

theorem opens_copied (opens : Trace.Opens events) : Trace.Opens (events.map RoomEvent.copied) := by
  rcases opens with rfl | ⟨rest, rfl, others⟩
  · exact .inl rfl
  · refine .inr ⟨rest.map RoomEvent.copied, rfl, fun member => ?_⟩
    obtain ⟨event, inside, same⟩ := List.mem_map.mp member
    exact others (copied_eq_create.mp same ▸ inside)

/-- What the observer is told, as the payloads have it. -/
def toldCopies (telling : List (Nat × RoomEvent)) : List (Nat × RoomEvent) :=
  telling.map fun entry => (entry.1, entry.2.copied)

structure Kept (site : Site) (s : NapiGameServer) : Prop where
  sound : Roomserver.Sound site s.server
  numbered : s.emitted.Pairwise fun a b => a.seq < b.seq
  below : ∀ payload ∈ s.emitted, payload.seq < s.emitted.length
  queued : ∀ type payload, payload ∈ s.queue type ↔
    payload ∈ s.emitted ∧ payload ∉ s.invoked ∧ payload.event.type = type
  sorted : ∀ type, (s.queue type).Pairwise fun a b => a.seq < b.seq
  told : s.emitted.map (fun payload => (payload.room, payload.event)) ++ toldCopies s.telling =
    toldCopies (told s.server.log)
  emitted : ∀ payload ∈ s.invoked, payload ∈ s.emitted
  /-- The rooms that the script knows are those whose creation it has not ignored. -/
  known : ∀ rooms, s.gameserver.rooms = some rooms → ∀ p ∈ rooms,
    ∃ payload ∈ s.invoked, payload.room = p ∧ payload.event = .roomEventCreate
  heard : ∀ payload ∈ s.invoked, payload.event = .roomEventCreate →
    payload ∈ s.ignored ∨ ∃ rooms, s.gameserver.rooms = some rooms ∧ payload.room ∈ rooms

theorem told_append (first second : List (Nat × RoomCall)) :
    told (first ++ second) = told first ++ told second :=
  List.filterMap_append

theorem told_ofRoom (server : Roomserver) (p : Nat) :
    ((told server.log).filter (·.1 = p)).map Prod.snd = observed (server.logOf p) := by
  simp only [Roomserver.logOf]
  induction server.log with
  | nil => rfl
  | cons entry rest ih =>
    obtain ⟨room, call⟩ := entry
    by_cases same : room = p <;> cases event : call.event? <;>
      simp_all [told, observed]

/-- The events of a room among the payloads are the first of those that its
observer has been told. -/
theorem Kept.opens (kept : Kept site s) (p : Nat) :
    Trace.Opens ((ofRoom p s.emitted).map CallbackPayload.event) := by
  refine Trace.Opens.prefix (opens_copied (kept.sound.opens p)) ?_
  have begun : s.emitted.map (fun payload => (payload.room, payload.event)) <+:
      toldCopies (NapiGameServer.told s.server.log) := by
    rw [← kept.told]
    exact List.prefix_append _ _
  have ofThis := (begun.filter (·.1 = p)).map Prod.snd
  have left :
      ((s.emitted.map fun payload => (payload.room, payload.event)).filter (·.1 = p)).map
        Prod.snd =
      (ofRoom p s.emitted).map CallbackPayload.event := by
    simp only [ofRoom, List.filter_map, List.map_map]
    rfl
  have right : ((toldCopies (NapiGameServer.told s.server.log)).filter (·.1 = p)).map Prod.snd =
      (observed (s.server.logOf p)).map RoomEvent.copied := by
    rw [← told_ofRoom, toldCopies, List.filter_map, List.map_map, List.map_map]
    rfl
  rwa [left, right] at ofThis

theorem Kept.init : Kept site {} := by
  constructor <;> simp [Roomserver.sound_init, toldCopies, NapiGameServer.told]

theorem Kept.serves (kept : Kept site s) {server : Roomserver}
    (effect : Roomserver.Effect site s.server event server) (silent : s.telling = []) :
    Kept site { s with
      server, telling := NapiGameServer.told (server.log.drop s.server.log.length) } where
  sound := effect.sound kept.sound
  numbered := kept.numbered
  below := kept.below
  queued := kept.queued
  sorted := kept.sorted
  told := by
    obtain ⟨more, same⟩ := effect.log_prefix kept.sound
    have before := kept.told
    rw [silent] at before
    simp only [toldCopies, List.map_nil, List.append_nil] at before
    simp only [before, ← same, List.drop_left, told_append, toldCopies, List.map_append]
  emitted := kept.emitted
  known := kept.known
  heard := kept.heard

theorem Kept.tells (kept : Kept site s) {room : Nat} {event : RoomEvent}
    {telling : List (Nat × RoomEvent)} (next : s.telling = (room, event) :: telling) :
    Kept site (({ s with telling } : NapiGameServer).callThreadsafeFunction room event) := by
  have fresh : ∀ payload ∈ s.emitted, payload.seq ≠ s.emitted.length :=
    fun payload member => Nat.ne_of_lt (kept.below payload member)
  let payload : CallbackPayload := { seq := s.emitted.length, room, event := event.copied }
  have unseen : payload ∉ s.emitted := fun member => fresh payload member rfl
  have uncalled : payload ∉ s.invoked := fun member => unseen (kept.emitted payload member)
  constructor
  case sound => exact kept.sound
  case numbered =>
    refine List.pairwise_append.mpr ⟨kept.numbered, List.pairwise_singleton _ _,
      fun a member b last => ?_⟩
    cases List.mem_singleton.mp last
    exact kept.below a member
  case below =>
    intro other member
    change other.seq < (s.emitted ++ [payload]).length
    rw [List.length_append, List.length_singleton]
    rcases List.mem_append.mp member with old | last
    · exact Nat.lt_succ_of_lt (kept.below other old)
    · cases List.mem_singleton.mp last
      exact Nat.lt_succ_self _
  case queued =>
    intro type other
    simp only [callThreadsafeFunction]
    split
    · rename_i same
      rw [List.mem_append, List.mem_append, kept.queued, List.mem_singleton]
      constructor
      · rintro (⟨old, left, typed⟩ | rfl)
        · exact ⟨.inl old, left, typed⟩
        · exact ⟨.inr rfl, uncalled, same.symm⟩
      · rintro ⟨old | rfl, left, typed⟩
        · exact .inl ⟨old, left, typed⟩
        · exact .inr rfl
    · rename_i different
      rw [kept.queued, List.mem_append, List.mem_singleton]
      constructor
      · rintro ⟨old, left, typed⟩
        exact ⟨.inl old, left, typed⟩
      · rintro ⟨old | rfl, left, typed⟩
        · exact ⟨old, left, typed⟩
        · exact absurd typed.symm different
  case sorted =>
    intro type
    simp only [callThreadsafeFunction]
    split
    · refine List.pairwise_append.mpr ⟨kept.sorted type, List.pairwise_singleton _ _,
        fun a member b last => ?_⟩
      cases List.mem_singleton.mp last
      exact kept.below a ((kept.queued _ _).mp member).1
    · exact kept.sorted type
  case told =>
    have before := kept.told
    rw [next] at before
    simpa [callThreadsafeFunction, toldCopies] using before
  case emitted => exact fun other member => List.mem_append_left _ (kept.emitted other member)
  case known => exact kept.known
  case heard => exact kept.heard

theorem Kept.hearsStart (kept : Kept site s) :
    Kept site { s with startQueue := s.startQueue - 1, gameserver := s.gameserver.onServerStart } := by
  refine { kept with known := ?_, heard := ?_ }
  · intro rooms present p member
    simp only [ScriptGameserver.onServerStart] at present
    split at present
    · cases Option.some.inj present
      contradiction
    · exact kept.known rooms present p member
  · intro payload member created
    refine (kept.heard payload member created).imp id ?_
    rintro ⟨rooms, present, listed⟩
    simp only [ScriptGameserver.onServerStart, present]
    exact ⟨rooms, rfl, listed⟩

/-- Which rooms a callback leaves known. -/
theorem mem_rooms_roomEvent (g : ScriptGameserver) (payload : CallbackPayload) (p : Nat) :
    (∃ rooms, (g.roomEvent payload).1.rooms = some rooms ∧ p ∈ rooms) ↔
      (∃ rooms, g.rooms = some rooms ∧ p ∈ rooms) ∨
        payload.event = .roomEventCreate ∧ p = payload.room ∧ g.rooms.isSome = true := by
  cases present : g.rooms with
  | none =>
    cases event : payload.event <;>
      simp [ScriptGameserver.roomEvent, ScriptGameserver.roomEventCreate,
        ScriptGameserver.roomEventOther, event, present]
  | some rooms =>
    by_cases listed : payload.room ∈ rooms <;> cases event : payload.event <;>
      simp [ScriptGameserver.roomEvent, ScriptGameserver.roomEventCreate,
        ScriptGameserver.roomEventOther, event, present, listed]
    rintro rfl
    exact listed

/-- Whether a callback has an effect. -/
theorem heeded_iff (g : ScriptGameserver) (payload : CallbackPayload) :
    (g.roomEvent payload).2 = true ↔ ∃ rooms, g.rooms = some rooms ∧
      (payload.event = .roomEventCreate ↔ payload.room ∉ rooms) := by
  cases present : g.rooms with
  | none =>
    cases event : payload.event <;>
      simp [ScriptGameserver.roomEvent, ScriptGameserver.roomEventCreate,
        ScriptGameserver.roomEventOther, event, present]
  | some rooms =>
    by_cases listed : payload.room ∈ rooms <;> cases event : payload.event <;>
      simp [ScriptGameserver.roomEvent, ScriptGameserver.roomEventCreate,
        ScriptGameserver.roomEventOther, event, present, listed]

theorem Kept.mem_rest (kept : Kept site s) (queue : s.queue type = payload :: rest)
    (later : CallbackPayload) :
    later ∈ rest ↔ later ∈ s.queue type ∧ later ≠ payload := by
  have sorted := kept.sorted type
  rw [queue] at sorted
  have least := (List.pairwise_cons.mp sorted).1
  rw [queue, List.mem_cons]
  constructor
  · intro member
    refine ⟨.inr member, ?_⟩
    rintro rfl
    exact Nat.lt_irrefl _ (least later member)
  · rintro ⟨rfl | member, different⟩
    · exact absurd rfl different
    · exact member

theorem Kept.calls (kept : Kept site s) (queue : s.queue type = payload :: rest) :
    Kept site { s with
      queue := fun other => if other = type then rest else s.queue other
      gameserver := (s.gameserver.roomEvent payload).1
      invoked := s.invoked ++ [payload]
      ignored := if (s.gameserver.roomEvent payload).2 then s.ignored
        else s.ignored ++ [payload] } := by
  obtain ⟨made, uncalled, typed⟩ := (kept.queued type payload).mp (by simp [queue])
  constructor
  case sound => exact kept.sound
  case numbered => exact kept.numbered
  case below => exact kept.below
  case queued =>
    intro other later
    rw [List.mem_append, List.mem_singleton, not_or]
    dsimp only
    by_cases same : other = type
    · subst same
      rw [if_pos rfl, kept.mem_rest queue, kept.queued]
      tauto
    · rw [if_neg same, kept.queued]
      constructor
      · rintro ⟨old, left, elsewhere⟩
        refine ⟨old, ⟨left, ?_⟩, elsewhere⟩
        rintro rfl
        exact same (elsewhere.symm.trans typed)
      · rintro ⟨old, ⟨left, _⟩, elsewhere⟩
        exact ⟨old, left, elsewhere⟩
  case sorted =>
    intro other
    dsimp only
    split
    · exact (queue ▸ kept.sorted type).of_cons
    · exact kept.sorted other
  case told => exact kept.told
  case emitted =>
    intro other member
    rcases List.mem_append.mp member with old | last
    · exact kept.emitted other old
    · cases List.mem_singleton.mp last
      exact made
  case known =>
    intro rooms present p member
    rcases (mem_rooms_roomEvent s.gameserver payload p).mp ⟨rooms, present, member⟩ with
      ⟨before, listed, old⟩ | ⟨created, rfl, _⟩
    · obtain ⟨first, called, created⟩ := kept.known before listed p old
      exact ⟨first, List.mem_append_left _ called, created⟩
    · exact ⟨payload, List.mem_append_right _ (List.mem_singleton_self _), rfl, created⟩
  case heard =>
    intro other member created
    rw [mem_rooms_roomEvent]
    rcases List.mem_append.mp member with old | last
    · rcases kept.heard other old created with dropped | known
      · refine .inl ?_
        split
        · exact dropped
        · exact List.mem_append_left _ dropped
      · exact .inr (.inl known)
    · cases List.mem_singleton.mp last
      cases heeded : (s.gameserver.roomEvent payload).2 with
      | false => exact .inl (by simp)
      | true =>
        obtain ⟨rooms, present, _⟩ := (heeded_iff _ _).mp heeded
        exact .inr (.inr ⟨created, rfl, by simp [present]⟩)

theorem Kept.step (kept : Kept site s) (effect : Effect site s e t) : Kept site t := by
  cases effect with
  | starts => exact { kept with }
  | serves effect silent => exact kept.serves effect silent
  | tells next => exact kept.tells next
  | hearsStart => exact kept.hearsStart
  | calls queue => exact kept.calls queue

theorem kept_of_run (run : (machine site).Run es s) : Kept site s :=
  Machine.Reaches.invariant (fun kept step => kept.step (effect_of_step step)) run Kept.init

/-! ### Where the order is kept -/

theorem mem_ofRoom {payloads : List CallbackPayload} :
    payload ∈ ofRoom p payloads ↔ payload ∈ payloads ∧ payload.room = p := by
  simp [ofRoom]

/-- The first event of a room is its creation, and no later one is. -/
theorem Kept.first (kept : Kept site s) (split : ofRoom p s.emitted = payload :: rest) :
    payload.event = .roomEventCreate ∧ ∀ other ∈ rest, other.event ≠ .roomEventCreate := by
  rcases kept.opens p with empty | ⟨events, split', others⟩
  · simp [split] at empty
  · rw [split, List.map_cons, List.cons.injEq] at split'
    obtain ⟨created, rfl⟩ := split'
    exact ⟨created, fun other member same => others (same ▸ List.mem_map_of_mem member)⟩

theorem Kept.create_unique (kept : Kept site s) (made : payload ∈ s.emitted)
    (madeToo : other ∈ s.emitted) (same : other.room = payload.room)
    (created : payload.event = .roomEventCreate) (createdToo : other.event = .roomEventCreate) :
    other = payload := by
  have here := mem_ofRoom.mpr ⟨made, rfl⟩
  have there := mem_ofRoom.mpr ⟨madeToo, same⟩
  obtain ⟨first, rest, split⟩ := List.exists_cons_of_ne_nil (List.ne_nil_of_mem here)
  have others := (kept.first split).2
  rw [split] at here there
  rcases List.mem_cons.mp here with rfl | late
  · rcases List.mem_cons.mp there with same | late
    · exact same
    · exact absurd createdToo (others other late)
  · exact absurd created (others payload late)

/-- Whether the oldest event of its room has an effect, when none was ignored. -/
theorem Kept.heeded (kept : Kept site s) (inOrder : InOrder s) (made : payload ∈ s.emitted)
    (uncalled : payload ∉ s.invoked)
    (oldest : ofRoom payload.room s.invoked ++ [payload] <+: ofRoom payload.room s.emitted) :
    (s.gameserver.roomEvent payload).2 = true ↔
      (payload.event = .roomEventCreate → s.gameserver.rooms.isSome = true) := by
  rw [heeded_iff]
  by_cases created : payload.event = .roomEventCreate
  · constructor
    · rintro ⟨rooms, present, _⟩ _
      simp [present]
    · intro heard
      obtain ⟨rooms, present⟩ := Option.isSome_iff_exists.mp (heard created)
      refine ⟨rooms, present, iff_of_true created fun listed => ?_⟩
      obtain ⟨earlier, called, same, createdToo⟩ := kept.known rooms present _ listed
      have twice := kept.create_unique made (kept.emitted earlier called) same created createdToo
      exact uncalled (twice ▸ called)
  · refine iff_of_true ?_ fun creates => absurd creates created
    cases called : ofRoom payload.room s.invoked with
    | nil =>
      -- the event would be the first of its room
      rw [called] at oldest
      obtain ⟨rest, split⟩ := oldest
      exact absurd (kept.first split.symm).1 created
    | cons first rest =>
      rw [called] at oldest
      obtain ⟨more, split⟩ := oldest
      have creation := (kept.first split.symm).1
      have before : first ∈ ofRoom payload.room s.invoked := by simp [called]
      obtain ⟨invoked, same⟩ := mem_ofRoom.mp before
      rcases kept.heard first invoked creation with dropped | ⟨rooms, present, listed⟩
      · simp [inOrder.heeded] at dropped
      · exact ⟨rooms, present, iff_of_false created fun absent => absent (same ▸ listed)⟩

theorem ofRoom_snoc (payloads : List CallbackPayload) (payload : CallbackPayload) (p : Nat) :
    ofRoom p (payloads ++ [payload]) = ofRoom p payloads ++ if payload.room = p then [payload]
      else [] := by
  by_cases same : payload.room = p <;> simp [ofRoom, same]

theorem Kept.mem_waiting (kept : Kept site s) :
    payload ∈ s.waiting ↔ payload ∈ s.emitted ∧ payload ∉ s.invoked := by
  have typed : payload.event.type ∈ List.range' 5 8 := by
    cases payload.event <;> simp [RoomEvent.type]
  simp only [waiting, List.mem_flatMap]
  constructor
  · rintro ⟨type, _, queued⟩
    obtain ⟨made, left, _⟩ := (kept.queued type payload).mp queued
    exact ⟨made, left⟩
  · rintro ⟨made, left⟩
    exact ⟨_, typed, (kept.queued _ payload).mpr ⟨made, left, rfl⟩⟩

/-- Taking a payload keeps its room's order if it is the oldest one left. -/
theorem Kept.begun_iff (kept : Kept site s) (inOrder : InOrder s) (made : payload ∈ s.emitted)
    (uncalled : payload ∉ s.invoked) :
    (∀ p, ofRoom p (s.invoked ++ [payload]) <+: ofRoom p s.emitted) ↔
      ∀ later ∈ s.waiting, later.room = payload.room → payload.seq ≤ later.seq := by
  have fresh : payload ∉ ofRoom payload.room s.invoked :=
    fun member => uncalled (mem_ofRoom.mp member).1
  have least := append_single_prefix_iff CallbackPayload.seq
    (kept.numbered.filter fun other => decide (other.room = payload.room)) (inOrder.begun payload.room)
    (mem_ofRoom.mpr ⟨made, rfl⟩) fresh
  constructor
  · intro all later left same
    obtain ⟨emitted, left⟩ := kept.mem_waiting.mp left
    have here := all payload.room
    rw [ofRoom_snoc, if_pos rfl] at here
    exact least.mp here later (mem_ofRoom.mpr ⟨emitted, same⟩) fun called =>
      left (mem_ofRoom.mp called).1
  · intro oldest p
    rw [ofRoom_snoc]
    by_cases same : payload.room = p
    · subst same
      rw [if_pos rfl]
      refine least.mpr fun later member outside => ?_
      obtain ⟨emitted, same⟩ := mem_ofRoom.mp member
      refine oldest later (kept.mem_waiting.mpr ⟨emitted, fun called => ?_⟩) same
      exact outside (mem_ofRoom.mpr ⟨called, same⟩)
    · rw [if_neg same, List.append_nil]
      exact inOrder.begun p

theorem inOrder_init : InOrder {} :=
  ⟨fun _ => List.prefix_refl _, rfl⟩

theorem inOrder_step (kept : Kept site s) (inOrder : InOrder s) (effect : Effect site s e t) :
    InOrder t ↔ Due s e := by
  cases effect with
  | starts | serves | hearsStart =>
    exact iff_of_true ⟨inOrder.begun, inOrder.heeded⟩ (by simp [Due])
  | tells next =>
    refine iff_of_true ⟨fun p => (inOrder.begun p).trans ?_, inOrder.heeded⟩ (by simp [Due])
    exact (List.prefix_append _ _).filter _
  | @calls type payload rest queue =>
    obtain ⟨made, uncalled, typed⟩ := (kept.queued type payload).mp (by simp [queue])
    have begun := kept.begun_iff inOrder made uncalled
    have due : Due s (.returnCb type) ↔
        (∀ later ∈ s.waiting, later.room = payload.room → payload.seq ≤ later.seq) ∧
          (payload.event = .roomEventCreate → s.gameserver.rooms.isSome = true) := by
      constructor
      · intro due
        exact due type payload rfl (by simp [queue])
      · rintro enough _ other same head
        cases same
        obtain rfl : payload = other := by simpa [queue] using head
        exact enough
    rw [due, ← begun]
    have heeded (all : ∀ p, ofRoom p (s.invoked ++ [payload]) <+: ofRoom p s.emitted) :=
      kept.heeded inOrder made uncalled (by
        have here := all payload.room
        rwa [ofRoom_snoc, if_pos rfl] at here)
    constructor
    · rintro ⟨all, nothing⟩
      refine ⟨all, (heeded all).mp ?_⟩
      by_contra unheeded
      simp [unheeded] at nothing
    · rintro ⟨all, heard⟩
      have effective := (heeded all).mpr heard
      exact ⟨all, by simp [effective, inOrder.heeded]⟩

/-- In a run of a spawned server, the callbacks of each room are invoked in the
order of its events and each has its effect, if and only if no callback overtakes
an older event of its room in another queue, and none a creation's server start. -/
theorem callbacks_in_order_iff (run : (machine site).Run es s) :
    (machine site).Always InOrder es ↔ (machine site).Meets Due es :=
  Machine.always_iff_meets inOrder_init
    (fun before inOrder step => inOrder_step (kept_of_run before) inOrder (effect_of_step step)) run

def dueTest (s : NapiGameServer) : Event → Bool
  | .returnCb type =>
      (s.queue type).head?.all fun payload =>
        (s.waiting.all fun later => later.room ≠ payload.room || payload.seq ≤ later.seq) &&
          (payload.event ≠ .roomEventCreate || s.gameserver.rooms.isSome)
  | _ => true

theorem due_of_test (s : NapiGameServer) (e : Event) (passed : dueTest s e = true) : Due s e := by
  rintro type payload rfl head
  simp only [dueTest, head, Option.all_some, Bool.and_eq_true, List.all_eq_true, Bool.or_eq_true,
    decide_eq_true_eq] at passed
  obtain ⟨oldest, heard⟩ := passed
  exact ⟨fun later left same => (oldest later left).resolve_left fun other => other same,
    fun created => heard.resolve_left fun other => other created⟩

/-- Two players share a room until one of them leaves, and the script keeps up. -/
def attended : List Event :=
  .onServerStart :: .startCb ::
    (Roomserver.arrival 1 11 { roomConfig := { min := 2, max := 2 } }).map .server ++
  [.callThreadsafeFunction, .callThreadsafeFunction, .returnCb 5, .returnCb 7] ++
  (Roomserver.arrival 2 22 { roomConfig := { min := 2, max := 2 } }).map .server ++
  [.callThreadsafeFunction, .returnCb 7, .callThreadsafeFunction, .returnCb 6,
    .server (.destroyConnection 1), .callThreadsafeFunction, .callThreadsafeFunction, .returnCb 9,
    .returnCb 10]

theorem callbacks_in_order_attended :
    ∃ s, (machine ⟨.pluginGameRoom, [], []⟩).Run attended s ∧
      s.invoked.map CallbackPayload.event = [.roomEventCreate, .roomEventPlayerAdded [] 11,
        .roomEventPlayerAdded [] 22, .roomEventStart, .roomEventPlayerRemoved [] 11,
          .roomEventEnd] ∧
      (machine ⟨.pluginGameRoom, [], []⟩).Always InOrder attended := by
  have shown : ((machine ⟨.pluginGameRoom, [], []⟩).exec {} attended).map
      (fun s => s.invoked.map CallbackPayload.event) = some [.roomEventCreate,
        .roomEventPlayerAdded [] 11,
        .roomEventPlayerAdded [] 22, .roomEventStart, .roomEventPlayerRemoved [] 11,
          .roomEventEnd] := by
    decide +kernel
  obtain ⟨s, run, same⟩ := Machine.exec_observe shown
  have passed : (machine ⟨.pluginGameRoom, [], []⟩).checks dueTest {} attended = true := by
    decide +kernel
  have met : (machine ⟨.pluginGameRoom, [], []⟩).Meets Due attended :=
    fun _ _ _ inside path => Machine.meets_of_checks due_of_test passed inside path
  exact ⟨s, run, same, (callbacks_in_order_iff run).mpr met⟩

/-- The first player of a room has been added when the script comes to the queues,
and it takes the addition before the creation. -/
def overtaken : List Event :=
  .onServerStart :: .startCb ::
    (Roomserver.arrival 1 11 { roomConfig := { min := 2, max := 2 } }).map .server ++
  [.callThreadsafeFunction, .callThreadsafeFunction, .returnCb 7, .returnCb 5]

/-- The script never hears of that player. -/
theorem addition_ignored :
    ∃ s, (machine ⟨.pluginGameRoom, [], []⟩).Run overtaken s ∧
      s.emitted.map CallbackPayload.event = [.roomEventCreate, .roomEventPlayerAdded [] 11] ∧
      s.invoked.map CallbackPayload.event = [.roomEventPlayerAdded [] 11, .roomEventCreate] ∧
      s.ignored.map CallbackPayload.event = [.roomEventPlayerAdded [] 11] ∧
      ¬ (machine ⟨.pluginGameRoom, [], []⟩).Always InOrder overtaken := by
  have shown : ((machine ⟨.pluginGameRoom, [], []⟩).exec {} overtaken).map (fun s =>
      (s.emitted.map CallbackPayload.event, s.invoked.map CallbackPayload.event,
        s.ignored.map CallbackPayload.event)) =
      some ([.roomEventCreate, .roomEventPlayerAdded [] 11],
        [.roomEventPlayerAdded [] 11, .roomEventCreate],
        [.roomEventPlayerAdded [] 11]) := by decide +kernel
  obtain ⟨s, run, same⟩ := Machine.exec_observe shown
  simp only [Prod.mk.injEq] at same
  refine ⟨s, run, same.1, same.2.1, same.2.2, fun always => ?_⟩
  have nothing := (always overtaken s (List.prefix_refl _) run).heeded
  simp [nothing] at same

end NapiGameServer
end Gearsdk
