import Gearsdk.PluginGameserver
import Gearsdk.Roomserver.Lists

/-! Where the messages of scripts go. The queue keeps every packet until it is
taken out, in order. A packet that is taken out goes to the room at its address,
and this is the room it was made for unless a later room has been constructed
there and has started. -/
namespace Gearsdk
open Std Transition

/-- The players whom a packet is for. One that names a player who has no seat is for
nobody. -/
def ResponsePacket.recipients (packet : ResponsePacket) (r : Room) : List QconnIo :=
  match packet.type with
  | .broadcastExcept =>
      if packet.cidHash ∈ r.playermap then
        (r.players.map (·.qconnection)).filter (·.cidHashVal ≠ packet.cidHash)
      else []
  | .broadcast => r.players.map (·.qconnection)
  | .sendTo => (r.playermap[packet.cidHash]?).toList.map (·.qconnection)

/-- The packet went to the room it was made for and to its recipients there, or to
nobody if that room was gone. -/
structure Drained.Rightly (d : Drained) : Prop where
  receiver : d.receiver = d.target.map fun _ => d.packet.room
  calls : d.calls = match d.target with
    | none => []
    | some r => (d.packet.recipients r).map fun q => .sendmessage q (.raw d.packet.message)

theorem ResponsePacket.deliver_eq (packet : ResponsePacket) {r : Room} (seated : r.Seated) :
    packet.deliver r = (packet.recipients r).map fun q => .sendmessage q (.raw packet.message) := by
  cases type : packet.type with
  | broadcast =>
    simp only [deliver, recipients, type, Room.broadcast, List.map_map]
    rfl
  | sendTo =>
    simp only [deliver, recipients, type, Room.getPlayer]
    cases present : r.playermap[packet.cidHash]? with
    | none => rfl
    | some p =>
      have same := seated.keyed _ _ present
      have member := TreeMap.mem_iff_contains.mp (OrderedMap.mem_of_lookup present)
      simp only [Room.sendto, same, member, if_true]
      rfl
  | broadcastExcept =>
    simp only [deliver, recipients, type, Room.getPlayer]
    cases present : r.playermap[packet.cidHash]? with
    | none => rw [if_neg (OrderedMap.not_mem_iff_lookup.mpr present), List.map_nil]
    | some p =>
      have same := seated.keyed _ _ present
      have member := OrderedMap.mem_of_lookup present
      have keys : ∀ entry ∈ r.playermap.toList,
          decide (entry.1 ≠ packet.cidHash) =
            decide (entry.2.qconnection.cidHashVal ≠ packet.cidHash) := by
        intro entry listed
        have found : r.playermap[entry.1]? = some entry.2 :=
          TreeMap.mem_toList_iff_getElem?_eq_some.mp listed
        rw [seated.keyed _ _ found]
      simp only [Room.broadcastExcept, same, TreeMap.mem_iff_contains.mp member, if_true,
        if_pos member, Room.players, List.map_map, List.filter_map]
      rw [List.filter_congr keys]
      rfl

def ScriptThread.inFlight : ScriptThread → List ResponsePacket
  | .enqueueing packet => [packet]
  | .idle | .notifying => []

namespace PluginGameserver
/-- The packets that are still on their way. -/
def pending (s : PluginGameserver) : List ResponsePacket :=
  s.evNotifier.responseQueue ++ s.script.inFlight

/-- Packets are taken out once each, in the order in which they were made, and go
where they should; and while some are left, the callback is under way or will come. -/
structure Orderly (s : PluginGameserver) : Prop where
  fifo : s.drained.map Drained.packet ++ s.pending = s.accepted
  rightly : ∀ d ∈ s.drained, d.Rightly
  awaited : s.evNotifier.responseQueue ≠ [] →
    s.script = .notifying ∨ s.evNotifier.sent = true ∨ s.draining = true

/-- No other started room is at the address that the next packet names. -/
def Anchored (s : PluginGameserver) (e : Event) : Prop :=
  e = .dequeueResponse → ∀ packet, s.evNotifier.responseQueue.head? = some packet →
    ∀ room ∈ s.server.rooms, s.addressOf room = packet.roomPtr → room = packet.room

/-! ### What a step does -/

/-- The packet that a call of the script makes, if the event is a call. -/
def Event.asks (s : PluginGameserver) : Event → Option (Option ResponsePacket)
  | .roomBroadcastExcept roomPtr cidHash msg => some (s.roomBroadcastExcept roomPtr cidHash msg)
  | .roomBroadcast roomPtr msg => some (s.roomBroadcast roomPtr msg)
  | .roomSendTo roomPtr cidHash msg => some (s.roomSendTo roomPtr cidHash msg)
  | .onNetworkServerInit | .server _ _ | .enqueueResponse | .notifyMainThread | .notifyServerAsyncCb
  | .dequeueResponse => none

/-- The addresses after an event of the server for which `address` was at hand. -/
def construct (s : PluginGameserver) (address : Nat) : Nat → Nat :=
  fun room => if room = s.server.roomIdCounter then address else s.addressOf room

inductive Effect (site : Site) (s : PluginGameserver) : Event → PluginGameserver → Prop where
  | init : Effect site s .onNetworkServerInit { s with evNotifier := s.evNotifier.init }
  | server {event : Gearsdk.Event} {server : Roomserver} {address : Nat}
      (effect : Roomserver.Effect site s.server event server) (inited : s.evNotifier.inited = true)
      (free : ∀ room ∈ s.server.roomHeap, s.addressOf room ≠ address) :
      Effect site s (.server event address) { s with server, addressOf := s.construct address }
  | refused {e : Event} (asks : e.asks s = some none) : Effect site s e s
  | made {e : Event} {packet : ResponsePacket} (asks : e.asks s = some (some packet))
      (idle : s.script = .idle)
      (found : s.tryGetRoomIfInMap packet.roomPtr = some packet.room) :
      Effect site s e { s with script := .enqueueing packet, accepted := s.accepted ++ [packet] }
  | enqueues {packet : ResponsePacket} (calling : s.script = .enqueueing packet) :
      Effect site s .enqueueResponse
        { s with evNotifier := s.evNotifier.enqueueResponse packet, script := .notifying }
  | notifies (calling : s.script = .notifying) :
      Effect site s .notifyMainThread
        { s with evNotifier := s.evNotifier.notifyMainThread, script := .idle }
  | wakes (sent : s.evNotifier.sent = true) :
      Effect site s .notifyServerAsyncCb
        { s with evNotifier := { s.evNotifier with sent := false }, draining := true }
  | finishes (empty : s.evNotifier.inited = true → s.evNotifier.responseQueue = []) :
      Effect site s .dequeueResponse { s with draining := false }
  | drops {packet : ResponsePacket} {rest : List ResponsePacket}
      (queue : s.evNotifier.responseQueue = packet :: rest)
      (draining : s.draining = true) (absent : s.tryGetRoomIfInMap packet.roomPtr = none) :
      Effect site s .dequeueResponse
        { s with
          evNotifier := { s.evNotifier with responseQueue := rest }
          drained := s.drained ++
            [{ packet, target := s.server.roomHeap[packet.room]?, receiver := none, calls := [] }] }
  | delivers {packet : ResponsePacket} {rest : List ResponsePacket} {room : Nat} {r : Room}
      (queue : s.evNotifier.responseQueue = packet :: rest) (draining : s.draining = true)
      (found : s.tryGetRoomIfInMap packet.roomPtr =
        some room) (live : s.server.roomHeap[room]? = some r) :
      Effect site s .dequeueResponse
        { s with
          evNotifier := { s.evNotifier with responseQueue := rest }
          drained := s.drained ++
            [{ packet, target := s.server.roomHeap[packet.room]?, receiver := some room,
               calls := packet.deliver r }] }

variable {site : Site} {s t : PluginGameserver} {e : Event} {packet : ResponsePacket}

theorem response_some {type : ResponseType} {roomPtr cidHash : Nat} {msg : Option Qstring}
    (made : s.response type roomPtr cidHash msg = some packet) :
    s.tryGetRoomIfInMap packet.roomPtr = some packet.room := by
  simp only [response] at made
  split at made
  · contradiction
  · contradiction
  · split at made
    · contradiction
    · rename_i found
      cases made
      exact found

theorem asks_effect {response : Option ResponsePacket} (asks : e.asks s = some response)
    (idle : s.script = .idle) : Effect site s e (s.make response) := by
  cases response with
  | none => exact .refused asks
  | some packet =>
    refine .made asks idle ?_
    cases e with
    | roomBroadcastExcept | roomBroadcast | roomSendTo => exact response_some (Option.some.inj asks)
    | _ => contradiction

theorem idle_of_enabled (possible : (match s.script with
    | .idle => true
    | .enqueueing _ | .notifying => false) = true) : s.script = .idle := by
  cases script : s.script with
  | idle => rfl
  | enqueueing | notifying => simp [script] at possible

theorem dequeueResponse_nil {n : AsyncEvNotifier ResponsePacket}
    (empty : n.inited = true → n.responseQueue = []) : n.dequeueResponse = (none, n) := by
  cases inited : n.inited with
  | false => simp [AsyncEvNotifier.dequeueResponse, inited]
  | true => simp [AsyncEvNotifier.dequeueResponse, empty inited]

theorem dequeueResponse_cons {n : AsyncEvNotifier ResponsePacket} {rest : List ResponsePacket}
    (inited : n.inited = true) (queue : n.responseQueue = packet :: rest) :
    n.dequeueResponse = (some packet, { n with responseQueue := rest }) := by
  simp [AsyncEvNotifier.dequeueResponse, inited, queue]

theorem drain_effect (possible : s.draining = true) (drained : s.drain = .ok t) :
    Effect site s .dequeueResponse t := by
  by_cases empty : s.evNotifier.inited = true → s.evNotifier.responseQueue = []
  · simp only [drain, dequeueResponse_nil empty] at drained
    cases drained
    exact .finishes empty
  · obtain ⟨inited, filled⟩ := Classical.not_imp.mp empty
    obtain ⟨packet, rest, queue⟩ := List.exists_cons_of_ne_nil filled
    simp only [drain, dequeueResponse_cons inited queue, tryGetRoomIfInMap] at drained
    cases found : s.tryGetRoomIfInMap packet.roomPtr with
    | none =>
      simp only [tryGetRoomIfInMap] at found
      simp only [found] at drained
      cases drained
      exact .drops queue possible found
    | some room =>
      simp only [tryGetRoomIfInMap] at found
      simp only [found] at drained
      cases live : s.server.deref room with
      | error fault => simp [live] at drained
      | ok r =>
        simp only [live] at drained
        cases drained
        exact .delivers queue possible found (Roomserver.deref_ok.mp live)

theorem effect_of_step (step : (machine site).Step s e t) : Effect site s e t := by
  obtain ⟨possible, moved⟩ := step
  change s.enabled e = true at possible
  change next site s e = .ok t at moved
  cases e with
  | onNetworkServerInit =>
    cases moved
    exact .init
  | server event address =>
    simp only [enabled, Bool.and_eq_true, List.all_eq_true, decide_eq_true_eq] at possible
    obtain ⟨⟨⟨inited, _⟩, allowed⟩, free⟩ := possible
    simp only [next] at moved
    cases handled : s.server.next site event with
    | error fault => simp [handled] at moved
    | ok server =>
      simp only [handled] at moved
      cases moved
      exact .server (Roomserver.step_effect ⟨allowed, handled⟩) inited fun room member =>
        free room (TreeMap.mem_keys.mpr member)
  | roomBroadcastExcept | roomBroadcast | roomSendTo =>
    cases moved
    exact asks_effect rfl (idle_of_enabled possible)
  | enqueueResponse =>
    simp only [enabled] at possible
    simp only [next, enqueue] at moved
    split at possible
    · rename_i packet calling
      simp only [calling] at moved
      cases moved
      exact .enqueues calling
    · contradiction
    · contradiction
  | notifyMainThread =>
    simp only [enabled] at possible
    split at possible
    · rename_i calling
      cases moved
      exact .notifies calling
    · contradiction
    · contradiction
  | notifyServerAsyncCb =>
    simp only [enabled, Bool.and_eq_true] at possible
    cases moved
    exact .wakes possible.1
  | dequeueResponse => exact drain_effect possible moved

/-! ### What every run keeps -/

structure Kept (site : Site) (s : PluginGameserver) : Prop where
  sound : Roomserver.Sound site s.server
  apart : ∀ p q, p ∈ s.server.roomHeap → q ∈ s.server.roomHeap →
    s.addressOf p = s.addressOf q → p = q
  /-- A room that a packet was made for had started, and the packet has its address. -/
  born : ∀ packet ∈ s.pending, packet.room < s.server.roomIdCounter
  named : ∀ packet ∈ s.pending, s.addressOf packet.room = packet.roomPtr
  started : ∀ packet ∈ s.pending, packet.room ∈ s.server.roomHeap → packet.room ∈ s.server.rooms
  inited : s.evNotifier.inited = true ∨ s.server.roomIdCounter = 0

theorem found_room (found : s.tryGetRoomIfInMap roomPtr = some room) :
    room ∈ s.server.rooms ∧ s.addressOf room = roomPtr :=
  ⟨List.mem_of_find?_eq_some found, by simpa using List.find?_some found⟩

theorem live_of_started (sound : Roomserver.Sound site s.server) (started : room ∈ s.server.rooms) :
    room ∈ s.server.roomHeap := by
  obtain ⟨r, live, _⟩ := sound.rooms_iff.mp started
  exact OrderedMap.mem_of_lookup live

theorem Kept.init : Kept site {} where
  sound := Roomserver.sound_init site
  apart p q live := by simp at live
  born packet member := by simp [pending, ScriptThread.inFlight] at member
  named packet member := by simp [pending, ScriptThread.inFlight] at member
  started packet member := by simp [pending, ScriptThread.inFlight] at member
  inited := .inr rfl

/-- Nothing is on its way before the notifier is initialised. -/
theorem Kept.inited_of_pending (kept : Kept site s) (filled : s.pending ≠ []) :
    s.evNotifier.inited = true := by
  obtain ⟨packet, member⟩ := List.exists_mem_of_ne_nil _ filled
  have early := kept.born packet member
  rcases kept.inited with inited | none_born
  · exact inited
  · omega

/-- Steps that only move packets along. -/
theorem Kept.frame (kept : Kept site s) (server : t.server = s.server)
    (addressOf : t.addressOf = s.addressOf)
    (inited : s.evNotifier.inited = true → t.evNotifier.inited = true)
    (pending : ∀ packet ∈ t.pending, packet ∈ s.pending) : Kept site t where
  sound := server ▸ kept.sound
  apart := by
    rw [server, addressOf]
    exact kept.apart
  born packet member := by
    rw [server]
    exact kept.born packet (pending packet member)
  named packet member := by
    rw [addressOf]
    exact kept.named packet (pending packet member)
  started packet member := by
    rw [server]
    exact kept.started packet (pending packet member)
  inited := by
    rw [server]
    exact kept.inited.imp inited id

theorem construct_old (address : Nat) (old : room < s.server.roomIdCounter) :
    s.construct address room = s.addressOf room := by
  simp only [construct, if_neg (Nat.ne_of_lt old)]

/-- A room that is live after an event of the server is at the new address, or was
live before and is where it was. -/
theorem Kept.constructed (kept : Kept site s) (effect : Roomserver.Effect site s.server event moved)
    (address : Nat) (live : room ∈ moved.roomHeap) :
    room = s.server.roomIdCounter ∧ s.construct address room = address ∨
      room ∈ s.server.roomHeap ∧ s.construct address room = s.addressOf room := by
  cases before : s.server.roomHeap[room]? with
  | some r =>
    exact .inr ⟨OrderedMap.mem_of_lookup before, construct_old address (kept.sound.born before)⟩
  | none =>
    obtain ⟨r, after⟩ := OrderedMap.mem_iff_lookup.mp live
    obtain ⟨_, _, _, _, _, _, _, _, same, _⟩ := effect.born kept.sound before after
    exact .inl ⟨same, by simp only [construct, if_pos same]⟩

theorem Kept.server (kept : Kept site s) (effect : Roomserver.Effect site s.server event moved)
    (inited : s.evNotifier.inited = true)
    (free : ∀ room ∈ s.server.roomHeap, s.addressOf room ≠ address) :
    Kept site { s with server := moved, addressOf := s.construct address } where
  sound := effect.sound kept.sound
  apart p q liveP liveQ same := by
    have same : s.construct address p = s.construct address q := same
    rcases kept.constructed effect address liveP with ⟨newP, atP⟩ | ⟨oldP, atP⟩ <;>
      rcases kept.constructed effect address liveQ with ⟨newQ, atQ⟩ | ⟨oldQ, atQ⟩ <;>
        rw [atP, atQ] at same
    · exact newP.trans newQ.symm
    · exact absurd same.symm (free q oldQ)
    · exact absurd same (free p oldP)
    · exact kept.apart p q oldP oldQ same
  born packet member := Nat.lt_of_lt_of_le (kept.born packet member) (effect.counter_le kept.sound)
  named packet member := by
    rw [← kept.named packet member]
    exact construct_old address (kept.born packet member)
  started packet member live := by
    obtain ⟨r, after⟩ := OrderedMap.mem_iff_lookup.mp live
    have early := kept.born packet member
    have before : packet.room ∈ s.server.roomHeap := by
      by_contra absent
      have gone := ((effect.later kept.sound).2 packet.room early).1
        (OrderedMap.not_mem_iff_lookup.mp absent)
      exact OrderedMap.not_mem_iff_lookup.mpr gone live
    exact effect.stays_started kept.sound (kept.started packet member before) live
  inited := .inl inited

theorem Kept.made (kept : Kept site s) (idle : s.script = .idle)
    (found : s.tryGetRoomIfInMap packet.roomPtr = some packet.room) :
    Kept site { s with script := .enqueueing packet, accepted := s.accepted ++ [packet] } := by
  obtain ⟨started, here⟩ := found_room found
  have live := live_of_started kept.sound started
  obtain ⟨r, lookup⟩ := OrderedMap.mem_iff_lookup.mp live
  have before : ∀ other ∈ s.evNotifier.responseQueue ++ [packet], other ∈ s.pending ∨
      other = packet := by
    intro other member
    simpa [pending, idle, ScriptThread.inFlight] using member
  refine { sound := kept.sound, apart := kept.apart, born := ?_, named := ?_, started := ?_,
           inited := kept.inited }
  · intro other member
    rcases before other member with old | rfl
    · exact kept.born other old
    · exact kept.sound.born lookup
  · intro other member
    rcases before other member with old | rfl
    · exact kept.named other old
    · exact here
  · intro other member still
    rcases before other member with old | rfl
    · exact kept.started other old still
    · exact started

theorem init_responseQueue (n : AsyncEvNotifier ResponsePacket) :
    n.init.responseQueue = n.responseQueue := by
  simp only [AsyncEvNotifier.init]
  split <;> rfl

theorem init_inited (n : AsyncEvNotifier ResponsePacket) : n.init.inited = true := by
  simp only [AsyncEvNotifier.init]
  split
  · assumption
  · rfl

theorem init_sent (n : AsyncEvNotifier ResponsePacket) : n.init.sent = n.sent := by
  simp only [AsyncEvNotifier.init]
  split <;> rfl

theorem enqueueResponse_inited {n : AsyncEvNotifier ResponsePacket} (inited : n.inited = true) :
    n.enqueueResponse packet = { n with responseQueue := n.responseQueue ++ [packet] } := by
  simp [AsyncEvNotifier.enqueueResponse, inited]

theorem notifyMainThread_responseQueue (n : AsyncEvNotifier ResponsePacket) :
    n.notifyMainThread.responseQueue = n.responseQueue := by
  simp only [AsyncEvNotifier.notifyMainThread]
  split <;> rfl

theorem notifyMainThread_inited (n : AsyncEvNotifier ResponsePacket) :
    n.notifyMainThread.inited = n.inited := by
  simp only [AsyncEvNotifier.notifyMainThread]
  split <;> rfl

theorem Kept.step (kept : Kept site s) (effect : Effect site s e t) : Kept site t := by
  cases effect with
  | init =>
    refine kept.frame rfl rfl (fun _ => init_inited _) fun other member => ?_
    simpa only [pending, init_responseQueue] using member
  | server effect inited free => exact kept.server effect inited free
  | refused => exact kept
  | made _ idle found => exact kept.made idle found
  | @enqueues packet calling =>
    have inited : s.evNotifier.inited = true :=
      kept.inited_of_pending (by simp [pending, calling, ScriptThread.inFlight])
    rw [enqueueResponse_inited inited]
    refine kept.frame rfl rfl id fun other member => ?_
    simpa [pending, calling, ScriptThread.inFlight] using member
  | notifies calling =>
    refine kept.frame rfl rfl (fun inited => (notifyMainThread_inited _).trans inited)
      fun other member => ?_
    simpa only [pending, calling, ScriptThread.inFlight,
      notifyMainThread_responseQueue] using member
  | wakes => exact kept.frame rfl rfl id fun _ => id
  | finishes => exact kept.frame rfl rfl id fun _ => id
  | drops queue | delivers queue =>
    refine kept.frame rfl rfl id fun other member => ?_
    rw [pending, queue]
    exact List.mem_cons_of_mem _ member

theorem kept_of_run (run : (machine site).Run es s) : Kept site s :=
  Machine.Reaches.invariant (fun kept step => kept.step (effect_of_step step)) run Kept.init

/-! ### Where the packets go -/

theorem orderly_init : Orderly {} where
  fifo := rfl
  rightly d member := by simp at member
  awaited filled := absurd rfl filled

/-- The next packet has been taken out. -/
theorem Orderly.taken (orderly : Orderly s) (queue : s.evNotifier.responseQueue = packet :: rest)
    (draining : s.draining = true) (taken : d.packet = packet) (right : d.Rightly) :
    Orderly { s with
      evNotifier := { s.evNotifier with responseQueue := rest }
      drained := s.drained ++ [d] } where
  fifo := by
    have fifo := orderly.fifo
    rw [pending, queue] at fifo
    simpa [pending, taken] using fifo
  rightly other member := by
    rcases List.mem_append.mp member with old | new
    · exact orderly.rightly other old
    · cases List.mem_singleton.mp new
      exact right
  awaited _ := .inr (.inr draining)

/-- A packet that finds no room was made for a room that is gone. -/
theorem Kept.target_gone (kept : Kept site s) (member : packet ∈ s.pending)
    (absent : s.tryGetRoomIfInMap packet.roomPtr = none) :
    s.server.roomHeap[packet.room]? = none := by
  rw [← OrderedMap.not_mem_iff_lookup]
  intro live
  have started := kept.started packet member live
  have elsewhere := List.find?_eq_none.mp absent packet.room started
  exact elsewhere (by simp [kept.named packet member])

theorem Kept.anchored (kept : Kept site s) (started : packet.room ∈ s.server.rooms)
    (here : s.addressOf packet.room = packet.roomPtr) :
    ∀ room ∈ s.server.rooms, s.addressOf room = packet.roomPtr → room = packet.room :=
  fun room other same => kept.apart room packet.room (live_of_started kept.sound other)
    (live_of_started kept.sound started) (same.trans here.symm)

theorem orderly_step (kept : Kept site s) (orderly : Orderly s) (effect : Effect site s e t) :
    Orderly t ↔ Anchored s e := by
  cases effect with
  | init =>
    refine iff_of_true ⟨?_, orderly.rightly, ?_⟩ (by simp [Anchored])
    · simpa only [pending, init_responseQueue] using orderly.fifo
    · simpa only [init_responseQueue, init_sent] using orderly.awaited
  | server =>
    exact iff_of_true ⟨orderly.fifo, orderly.rightly, orderly.awaited⟩ (by simp [Anchored])
  | refused asks =>
    refine iff_of_true orderly fun same => ?_
    subst same
    contradiction
  | made asks idle =>
    refine iff_of_true ⟨?_, orderly.rightly, fun filled => ?_⟩ fun same => ?_
    · have fifo := orderly.fifo
      simp only [pending, idle, ScriptThread.inFlight, List.append_nil] at fifo
      simp only [pending, ScriptThread.inFlight]
      rw [← List.append_assoc, fifo]
    · simpa [idle] using orderly.awaited filled
    · subst same
      contradiction
  | @enqueues packet calling =>
    have inited : s.evNotifier.inited = true :=
      kept.inited_of_pending (by simp [pending, calling, ScriptThread.inFlight])
    rw [enqueueResponse_inited inited]
    refine iff_of_true ⟨?_, orderly.rightly, fun _ => .inl rfl⟩ (by simp [Anchored])
    simpa [pending, calling, ScriptThread.inFlight] using orderly.fifo
  | notifies calling =>
    refine iff_of_true ⟨?_, orderly.rightly, fun filled => .inr (.inl ?_)⟩ (by simp [Anchored])
    · simpa only [pending, calling, ScriptThread.inFlight,
        notifyMainThread_responseQueue] using orderly.fifo
    · rw [notifyMainThread_responseQueue] at filled
      obtain ⟨packet, rest, queue⟩ := List.exists_cons_of_ne_nil filled
      have inited := kept.inited_of_pending (by simp [pending, queue])
      simp [AsyncEvNotifier.notifyMainThread, inited]
  | wakes =>
    exact iff_of_true ⟨orderly.fifo, orderly.rightly, fun _ => .inr (.inr rfl)⟩ (by simp [Anchored])
  | finishes empty =>
    have none_left : s.evNotifier.responseQueue = [] := by
      by_contra filled
      obtain ⟨packet, rest, queue⟩ := List.exists_cons_of_ne_nil filled
      exact filled (empty (kept.inited_of_pending (by simp [pending, queue])))
    refine iff_of_true ⟨orderly.fifo, orderly.rightly, fun filled => absurd none_left filled⟩ ?_
    intro _ packet next
    simp [none_left] at next
  | @drops packet rest queue draining absent =>
    have member : packet ∈ s.pending := by simp [pending, queue]
    have gone := kept.target_gone member absent
    refine iff_of_true (orderly.taken queue draining rfl ⟨by simp [gone], by simp [gone]⟩) ?_
    intro _ other next room started here
    obtain rfl : packet = other := by simpa [queue] using next
    exact absurd (by simpa using here) (List.find?_eq_none.mp absent room started)
  | @delivers packet rest room r queue draining found live =>
    have member : packet ∈ s.pending := by simp [pending, queue]
    obtain ⟨started, here⟩ := found_room found
    by_cases own : room = packet.room
    · subst own
      have right : (Drained.mk packet (s.server.roomHeap[packet.room]?) (some packet.room)
          (packet.deliver r)).Rightly := by
        constructor
        · simp [live]
        · simp only [live]
          exact packet.deliver_eq (kept.sound.inv live).seated
      refine iff_of_true (orderly.taken queue draining rfl right) ?_
      intro _ other next
      obtain rfl : packet = other := by simpa [queue] using next
      exact kept.anchored started here
    · refine iff_of_false (fun after => ?_) fun anchored =>
        own (anchored rfl packet (by simp [queue]) room started here)
      have right := (after.rightly _ (List.mem_append_right _ (List.mem_singleton_self _))).receiver
      cases target : s.server.roomHeap[packet.room]? with
      | none => simp [target] at right
      | some r' => exact own (by simpa [target] using right)

/-- In a run of the plugin's server, every message goes once and in order to the
room it was made for, as long as that is there, and to no other room, if and only
if no packet is taken out while a later room has started at its address. -/
theorem delivered_to_own_room_iff (run : (machine site).Run es s) :
    (machine site).Always Orderly es ↔ (machine site).Meets Anchored es :=
  Machine.always_iff_meets orderly_init
    (fun before orderly step => orderly_step (kept_of_run before) orderly (effect_of_step step)) run

/-- The same events of the server, each with `address` at hand. -/
def atAddress (address : Nat) (events : List Gearsdk.Event) : List Event :=
  events.map fun event => .server event address

/-- What the script thread does after a call that has made a packet. -/
def handOver : List Event :=
  [.enqueueResponse, .notifyMainThread]

def anchoredTest (s : PluginGameserver) : Event → Bool
  | .dequeueResponse =>
      (s.evNotifier.responseQueue.head?).all fun packet =>
        s.server.rooms.all fun room => s.addressOf room ≠ packet.roomPtr || room = packet.room
  | _ => true

theorem anchored_of_test (s : PluginGameserver) (e : Event) (passed : anchoredTest s e = true) :
    Anchored s e := by
  rintro rfl packet next room started here
  simp only [anchoredTest, next, Option.all_some, List.all_eq_true, Bool.or_eq_true,
    decide_eq_true_eq] at passed
  exact (passed room started).resolve_left fun elsewhere => elsewhere here

/-- Two players share a room and each hear a broadcast, and one of them a message of
his own; a third message finds the room gone. -/
def farewellParty : List Event :=
  .onNetworkServerInit ::
    atAddress 7 (Roomserver.arrival 1 11 { roomConfig := { min := 2, max := 2 } }) ++
  atAddress 8 (Roomserver.arrival 2 22 { roomConfig := { min := 2, max := 2 } }) ++
  .roomBroadcast 7 (some [104]) :: handOver ++ .roomSendTo 7 22 (some [105]) :: handOver ++
  [.notifyServerAsyncCb, .dequeueResponse, .dequeueResponse, .dequeueResponse] ++
  .roomBroadcastExcept 7 22 (some [106]) :: handOver ++
  atAddress 8 [.destroyConnection 1, .destroyConnection 2] ++ [.notifyServerAsyncCb,
    .dequeueResponse]

theorem delivered_to_own_room_farewell :
    ∃ s, (machine ⟨.pluginGameRoom, [], []⟩).Run farewellParty s ∧
      s.drained.map (fun d => (d.receiver, d.calls.length)) =
        [(some 0, 2), (some 0, 1), (none, 0)] ∧
      (machine ⟨.pluginGameRoom, [], []⟩).Always Orderly farewellParty := by
  have shown : ((machine ⟨.pluginGameRoom, [], []⟩).exec {} farewellParty).map
      (fun s => s.drained.map fun d => (d.receiver, d.calls.length)) =
        some [(some 0, 2), (some 0, 1), (none, 0)] := by decide +kernel
  obtain ⟨s, run, same⟩ := Machine.exec_observe shown
  have passed : (machine ⟨.pluginGameRoom, [], []⟩).checks anchoredTest {} farewellParty =
      true := by
    decide +kernel
  have met : (machine ⟨.pluginGameRoom, [], []⟩).Meets Anchored farewellParty :=
    fun _ _ _ inside path => Machine.meets_of_checks anchored_of_test passed inside path
  exact ⟨s, run, same, (delivered_to_own_room_iff run).mpr met⟩

/-- A message for a room of one player, who leaves; the next room is constructed at
the same address and starts before the message is taken out. -/
def lateMessage : List Event :=
  .onNetworkServerInit ::
    atAddress 7 (Roomserver.arrival 1 11 { roomConfig := { min := 1, max := 1 } }) ++
  .roomBroadcast 7 (some [104]) :: handOver ++ atAddress 9 [.destroyConnection 1] ++
  atAddress 7 (Roomserver.arrival 2 22 { roomConfig := { min := 1, max := 1 } }) ++
  [.notifyServerAsyncCb, .dequeueResponse]

/-- The player of the later room receives the message of the first one. -/
theorem delivered_to_later_room :
    ∃ s, (machine ⟨.pluginGameRoom, [], []⟩).Run lateMessage s ∧
      s.drained.map (fun d => (d.packet.room, d.receiver, d.calls)) =
        [(0, some 1, [.sendmessage ⟨2, 22⟩ (.raw [104])])] ∧
      ¬ (machine ⟨.pluginGameRoom, [], []⟩).Always Orderly lateMessage := by
  have shown : ((machine ⟨.pluginGameRoom, [], []⟩).exec {} lateMessage).map
      (fun s => s.drained.map fun d => (d.packet.room, d.receiver, d.calls)) =
        some [(0, some 1, [.sendmessage ⟨2, 22⟩ (.raw [104])])] := by decide +kernel
  obtain ⟨s, run, same⟩ := Machine.exec_observe shown
  refine ⟨s, run, same, fun always => ?_⟩
  obtain ⟨d, drained, received⟩ := List.map_eq_singleton_iff.mp same
  have right := ((always lateMessage s (List.prefix_refl _) run).rightly d (by simp [drained])).receiver
  simp only [Prod.mk.injEq] at received
  rw [received.2.1, received.1] at right
  cases target : d.target with
  | none => simp [target] at right
  | some r => simp [target] at right

end PluginGameserver
end Gearsdk
