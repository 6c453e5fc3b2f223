import Gearsdk.Room.Invariant
import Mathlib.Data.Finset.Basic

/-! The observer of a room as a reader of its events. The reader says which
event may come next after those it has seen, and keeps the set of hashes that
have been added and not yet removed. -/
namespace Gearsdk

structure Trace where
  created : Bool := false
  started : Bool := false
  ended : Bool := false
  /-- The count that the next countdown event has to have. -/
  nextCount : Int := Room.maxCountDown - 1
  present : Finset Nat := ∅

namespace Trace

/-- Creation comes first; start and end come once, in this order; a countdown
runs before the start and down to one; a hash is added when it is not present,
and removed and heard of only while it is. -/
def permits (trace : Trace) : RoomEvent → Bool
  | .roomEventCreate => !trace.created
  | .roomEventStart => trace.created && !trace.started
  | .roomEventEnd => trace.started && !trace.ended
  | .roomEventCountdownToStart count _ =>
      trace.created && !trace.started && decide (count = trace.nextCount ∧ 1 ≤ count)
  | .roomEventCountdownCancelled => trace.created && !trace.started
  | .roomEventPlayerAdded _ cidHash => trace.created && decide (cidHash ∉ trace.present)
  | .roomEventPlayerRemoved _ cidHash | .roomEventMessage _ cidHash _ =>
      trace.created && decide (cidHash ∈ trace.present)

/-- A countdown restarts only after a player is added. -/
def after (trace : Trace) : RoomEvent → Trace
  | .roomEventCreate => { trace with created := true }
  | .roomEventStart => { trace with started := true }
  | .roomEventEnd => { trace with ended := true }
  | .roomEventCountdownToStart count _ => { trace with nextCount := count - 1 }
  | .roomEventCountdownCancelled => trace
  | .roomEventPlayerAdded _ cidHash =>
      { trace with present := insert cidHash trace.present, nextCount := Room.maxCountDown - 1 }
  | .roomEventPlayerRemoved _ cidHash => { trace with present := trace.present.erase cidHash }
  | .roomEventMessage _ _ _ => trace

def read (trace : Trace) : List RoomEvent → Option Trace
  | [] => some trace
  | event :: rest => if trace.permits event then (trace.after event).read rest else none

theorem read_append (trace : Trace) (first second : List RoomEvent) :
    trace.read (first ++ second) = (trace.read first).bind fun trace => trace.read second := by
  induction first generalizing trace with
  | nil => rfl
  | cons event rest ih =>
    simp only [List.cons_append, read]
    split
    · exact ih _
    · rfl

theorem read_single {trace : Trace} (allowed : trace.permits event = true) :
    trace.read [event] = some (trace.after event) := by
  simp only [read, if_pos allowed]

/-- Removing present hashes one after the other leaves the others present. -/
theorem read_removals (removed : List (Qstring × Nat)) (trace : Trace)
    (created : trace.created = true) (distinct : (removed.map Prod.snd).Nodup)
    (listed : ∀ player ∈ removed, player.2 ∈ trace.present) :
    ∃ after, trace.read (removed.map fun player => .roomEventPlayerRemoved player.1 player.2) =
      some after ∧
      ∀ cidHash, cidHash ∈ after.present ↔ cidHash ∈ trace.present ∧
        cidHash ∉ removed.map Prod.snd := by
  induction removed generalizing trace with
  | nil => exact ⟨trace, rfl, by simp⟩
  | cons player rest ih =>
    rw [List.map_cons, List.nodup_cons] at distinct
    have here := listed player (List.mem_cons_self ..)
    have others : ∀ other ∈ rest, other.2 ∈ (trace.present.erase player.2) := by
      intro other member
      refine Finset.mem_erase.mpr ⟨fun same => ?_, listed other (List.mem_cons_of_mem _ member)⟩
      exact distinct.1 (same ▸ List.mem_map_of_mem member)
    obtain ⟨final, reads, left⟩ :=
      ih (trace.after (.roomEventPlayerRemoved player.1 player.2)) created distinct.2 others
    refine ⟨final, ?_, fun cidHash => ?_⟩
    · simpa [read, permits, created, here] using reads
    · rw [left, after, Finset.mem_erase, List.map_cons, List.mem_cons]
      tauto

/-- Creation first, once, and then anything else. -/
def Opens (events : List RoomEvent) : Prop :=
  events = [] ∨ ∃ rest, events = .roomEventCreate :: rest ∧ .roomEventCreate ∉ rest

theorem Opens.prefix (opens : Opens events) (shorter : first <+: events) : Opens first := by
  cases first with
  | nil => exact .inl rfl
  | cons event rest =>
    rcases opens with rfl | ⟨more, rfl, others⟩
    · simp at shorter
    · obtain ⟨rfl, inside⟩ := List.cons_prefix_cons.mp shorter
      exact .inr ⟨rest, rfl, fun member => others (inside.subset member)⟩

theorem after_created {trace : Trace} (created : trace.created = true) (event : RoomEvent) :
    (trace.after event).created = true := by
  cases event <;> simp [after, created]

theorem create_not_mem {trace after : Trace} {events : List RoomEvent}
    (created : trace.created = true) (reads : trace.read events = some after) :
    .roomEventCreate ∉ events := by
  induction events generalizing trace with
  | nil => simp
  | cons event rest ih =>
    simp only [read] at reads
    split at reads
    · rename_i permitted
      refine List.not_mem_cons_of_ne_of_not_mem ?_ (ih (after_created created event) reads)
      rintro rfl
      simp [permits, created] at permitted
    · contradiction

/-- Every trace that is read opens with the creation. -/
theorem opens {after : Trace} {events : List RoomEvent}
    (reads : ({} : Trace).read events = some after) :
    Opens events := by
  cases events with
  | nil => exact .inl rfl
  | cons event rest =>
    simp only [read] at reads
    split at reads
    · rename_i permitted
      cases event with
      | roomEventCreate => exact .inr ⟨rest, rfl, create_not_mem rfl reads⟩
      | _ => simp [permits] at permitted
    · contradiction

/-- A flag that one event sets, and no other touches, says if the event has been read. -/
theorem flag_iff {flag : Trace → Bool} {mark : RoomEvent} {trace after : Trace}
    {events : List RoomEvent}
    (sets : ∀ trace event, flag (trace.after event) = true ↔ flag trace = true ∨ event = mark)
    (reads : trace.read events = some after) :
    flag after = true ↔ flag trace = true ∨ mark ∈ events := by
  induction events generalizing trace with
  | nil =>
    cases Option.some.inj reads
    simp
  | cons event rest ih =>
    simp only [read] at reads
    split at reads
    · rw [ih reads, sets, or_assoc, List.mem_cons, eq_comm (a := event)]
    · contradiction

/-- The reader has seen a start exactly when there has been one. -/
theorem started_iff {trace after : Trace} {events : List RoomEvent}
    (reads : trace.read events = some after) :
    after.started = true ↔ trace.started = true ∨ .roomEventStart ∈ events := by
  refine flag_iff (fun trace event => ?_) reads
  cases event <;> simp [Trace.after]

theorem ended_iff {trace after : Trace} {events : List RoomEvent}
    (reads : trace.read events = some after) :
    after.ended = true ↔ trace.ended = true ∨ .roomEventEnd ∈ events := by
  refine flag_iff (fun trace event => ?_) reads
  cases event <;> simp [Trace.after]

end Trace

/-- The events among the calls of a room. -/
def RoomCall.event? : RoomCall → Option RoomEvent
  | .observer event => some event
  | .onroomPreStart | .sendmessage _ _ | .close _ | .decrBy _ _ => none

def observed (calls : List RoomCall) : List RoomEvent := calls.filterMap RoomCall.event?

@[simp] theorem observed_append (first second : List RoomCall) :
    observed (first ++ second) = observed first ++ observed second :=
  List.filterMap_append

theorem observed_silent (silent : ∀ call ∈ calls, RoomCall.event? call = none) :
    observed calls = [] :=
  List.filterMap_eq_nil_iff.mpr silent

namespace Room
open Std

variable {r r' : Room} {trace : Trace} {s : Room × List RoomCall}

@[simp] theorem observed_addOrRemove (r : Room) (p : Player) (add : Bool) :
    observed (r.sendEventPlayerAddOrRemove p add) = [] := by
  apply observed_silent
  intro call sent
  obtain ⟨_, _, rfl⟩ := List.mem_map.mp sent
  rfl

@[simp] theorem observed_startOrEnd (r : Room) (roomStart : Bool) :
    observed (r.sendEventRoomStartOrEnd roomStart) = [] := by
  apply observed_silent
  intro call sent
  obtain ⟨_, _, rfl⟩ := List.mem_map.mp sent
  rfl

@[simp] theorem observed_kickAll (r : Room) (except : Option QconnIo) :
    observed (r.kickAllExcept except) = [] := by
  apply observed_silent
  intro call kicked
  obtain ⟨_, _, rfl⟩ := List.mem_map.mp kicked
  rfl

@[simp] theorem observed_broadcast (r : Room) (p : Player) (msg : Qstring) :
    observed (r.broadcastExcept p msg) = [] := by
  simp only [broadcastExcept]
  split
  · apply observed_silent
    intro call sent
    obtain ⟨_, _, rfl⟩ := List.mem_map.mp sent
    rfl
  · rfl

theorem observed_welcome (r : Room) (q : QconnIo) (pid : Qstring) (prev : Nat) :
    observed (r.welcome q pid prev) =
      [.roomEventPlayerAdded (r.entrant q pid prev).pid q.cidHashVal] := by
  simp only [welcome, observed_append, observed_addOrRemove, List.nil_append]
  simp [observed, onroomPlayerAdded, RoomCall.event?]

theorem observed_farewell (r : Room) (player : Player) :
    observed (r.farewell player) =
      [.roomEventPlayerRemoved player.pid player.qconnection.cidHashVal] := by
  simp only [farewell, observed_append, observed_addOrRemove, List.nil_append]
  rfl

theorem observed_starting (r : Room) : observed r.starting = [.roomEventStart] := by
  change observed (r.sendEventRoomStartOrEnd true ++ _) = _
  rw [observed_append, observed_startOrEnd]
  rfl

theorem observed_ending (r : Room) : observed r.ending = [.roomEventEnd] := by
  change observed (_ ++ ([.observer .roomEventEnd] ++ r.kickAllExcept none)) = _
  rw [observed_append, observed_append, observed_startOrEnd, observed_kickAll]
  rfl

theorem observed_passMessage (r : Room) (p : Player) (msg : Qstring) :
    observed (r.passMessageToRoom p msg) = [.roomEventMessage p.pid p.qconnection.cidHashVal msg] := by
  simp only [passMessageToRoom]
  cases r.roomClass with
  | gameRoom =>
    change RoomEvent.roomEventMessage _ _ _ :: observed (r.broadcastExcept p msg) = _
    rw [observed_broadcast]
  | room => rfl
  | pluginGameRoom => rfl

/-- The reader knows the life cycle, the players and the countdown of the room. -/
structure Follows (trace : Trace) (r : Room) : Prop where
  created : trace.created = true
  started : trace.started = decide (States.roomStart.rank ≤ r.state.rank)
  ended : trace.ended = decide (r.state = .roomEnd)
  present : ∀ cidHash, cidHash ∈ trace.present ↔ cidHash ∈ r.playermap
  nextCount : ∀ timer ∈ r.scheduler.timers, trace.nextCount = timer.count - 1

theorem Follows.create (roomClass : RoomClass) (roomId creationTime : Int)
    (roomConfig : RoomConfig) :
    ∃ trace, ({} : Trace).read (observed (create roomClass roomId creationTime roomConfig).2) =
      some trace ∧
      Follows trace (create roomClass roomId creationTime roomConfig).1 := by
  refine ⟨{ created := true }, rfl, rfl, rfl, rfl, fun cidHash => ?_, ?_⟩
  · simp [create_eq]
  · simp [create_eq]

/-- A join is read as the addition of its hash, whatever it leads to. -/
theorem Follows.welcome (follows : Follows trace r) (accepted : r.accepts q.cidHashVal prev = true)
    (pid : Qstring) :
    ∃ after, trace.read (observed (r.welcome q pid prev)) = some after ∧
      after.created = true ∧ after.started = trace.started ∧ after.ended = trace.ended ∧
      after.nextCount = maxCountDown - 1 ∧
      ∀ cidHash, cidHash ∈ after.present ↔ cidHash ∈ (r.occupied q pid prev).playermap := by
  have absent : q.cidHashVal ∉ trace.present := by
    rw [follows.present]
    exact absent_of_accepts accepted
  rw [observed_welcome, Trace.read_single (by simp [Trace.permits, follows.created, absent])]
  refine ⟨_, rfl, follows.created, rfl, rfl, rfl, fun cidHash => ?_⟩
  rw [Trace.after, Finset.mem_insert, follows.present, occupied_playermap,
    OrderedMap.mem_insert_iff, eq_comm]

theorem Follows.farewell (follows : Follows trace r) (seated : r.Seated)
    (found : r.playermap[q.cidHashVal]? = some player) :
    ∃ after, trace.read (observed (r.farewell player)) = some after ∧
      after.created = true ∧ after.started = trace.started ∧ after.ended = trace.ended ∧
      after.nextCount = trace.nextCount ∧
      ∀ cidHash, cidHash ∈ after.present ↔ cidHash ∈ (r.vacated q).playermap := by
  have same := seated.keyed _ _ found
  have present : q.cidHashVal ∈ trace.present := by
    rw [follows.present]
    exact OrderedMap.mem_of_lookup found
  rw [observed_farewell, same, Trace.read_single (by simp [Trace.permits, follows.created, present])]
  refine ⟨_, rfl, follows.created, rfl, rfl, rfl, fun cidHash => ?_⟩
  rw [Trace.after, Finset.mem_erase, follows.present, vacated, OrderedMap.mem_erase_iff, ne_comm]

/-- The reader keeps up with every operation. -/
theorem Follows.change (follows : Follows trace r) (inv : r.Inv) (change : Change r op r' calls) :
    ∃ after, trace.read (observed calls) = some after ∧ Follows after r' := by
  cases change with
  | rejected | ignores | forgets =>
    exact ⟨trace, rfl, follows.1, follows.2, follows.3, follows.4, follows.5⟩
  | @seated q pid prev accepted idle =>
    obtain ⟨after, reads, created, started, ended, _, present⟩ := follows.welcome accepted pid
    refine ⟨after, reads, created, ?_, ?_, present, fun timer listed => ?_⟩
    · rw [started, follows.started, occupied_state]
    · rw [ended, follows.ended, occupied_state]
    · have none_listed : r.scheduler.timers = [] := by
        by_contra running
        have enough := inv.enough running
        have grows := getPlaymapCount_occupied pid prev (absent_of_accepts accepted)
        rcases idle with late | few
        · exact running (inv.countdown.idle_of_started late)
        · omega
      rw [occupied_scheduler, none_listed] at listed
      contradiction
  | @fills q pid prev accepted waiting enough full =>
    obtain ⟨after, reads, created, started, ended, _, present⟩ := follows.welcome accepted pid
    have early : trace.started = false := by rw [follows.started, waiting]; rfl
    have stopped := (inv.countdown.fills q pid prev enough).cancelled.1
    refine ⟨{ after with started := true }, ?_, created, rfl, ?_, present, fun timer listed => ?_⟩
    · rw [observed_append, Trace.read_append, reads, observed_starting]
      exact Trace.read_single (by simp [Trace.permits, created, started, early])
    · change after.ended = _
      rw [ended, follows.ended, waiting]
      rfl
    · change timer ∈ (r.occupied q pid prev).cancelCountDownTimer.scheduler.timers at listed
      rw [stopped] at listed
      contradiction
  | @countsDown q pid prev accepted waiting enough room =>
    obtain ⟨after, reads, created, started, ended, count, present⟩ := follows.welcome accepted pid
    refine ⟨after, reads, created, ?_, ?_, present, fun timer listed => ?_⟩
    · rw [started, follows.started, countingDown_state, occupied_state]
    · rw [ended, follows.ended, countingDown_state, occupied_state]
    · rw [(inv.countdown.fills q pid prev enough).restarted_timers, List.mem_singleton] at listed
      rw [count, listed]
  | @leaves q player found waiting enough | @keeps q player found late enough fresh
  | @drops q player found late enough known =>
    obtain ⟨after, reads, created, started, ended, count, present⟩ :=
      follows.farewell inv.seated found
    refine ⟨after, reads, created, started.trans follows.started, ended.trans follows.ended, present,
      fun timer listed => ?_⟩
    rw [count]
    exact follows.nextCount timer listed
  | @cancels q player found waiting few =>
    obtain ⟨after, reads, created, started, ended, _, present⟩ := follows.farewell inv.seated found
    have early : after.started = false := by rw [started, follows.started, waiting]; rfl
    refine ⟨after, ?_, created, started.trans follows.started, ended.trans follows.ended, present,
      fun timer listed => ?_⟩
    · rw [observed_append, Trace.read_append, reads]
      exact Trace.read_single (by simp [Trace.permits, created, early])
    · change timer ∈ r.cancelCountDownTimer.scheduler.timers at listed
      rw [inv.countdown.cancelled.1] at listed
      contradiction
  | @ends q player found started few =>
    obtain ⟨after, reads, created, same, open_, _, present⟩ := follows.farewell inv.seated found
    have running : after.started = true := by rw [same, follows.started, started]; rfl
    have unended : after.ended = false := by rw [open_, follows.ended, started]; rfl
    refine ⟨{ after with ended := true }, ?_, created, running, rfl, present,
      fun timer listed => ?_⟩
    · rw [observed_append, Trace.read_append, reads, observed_ending]
      exact Trace.read_single (by simp [Trace.permits, running, unended])
    · change timer ∈ r.scheduler.timers at listed
      rw [inv.countdown.idle_of_started (by simp [started])] at listed
      contradiction
  | @leavesEnded q player found ended few =>
    obtain ⟨after, reads, created, same, sameEnd, count, present⟩ :=
      follows.farewell inv.seated found
    refine ⟨after, ?_, created, same.trans follows.started, sameEnd.trans follows.ended, present,
      fun timer listed => ?_⟩
    · rw [observed_append, Trace.read_append, reads, observed_kickAll]
      rfl
    · rw [count]
      exact follows.nextCount timer listed
  | @ticks timer ptr listed named waiting more bound =>
    have early : trace.started = false := by rw [follows.started, waiting]; rfl
    have expected := follows.nextCount timer (by simp [listed])
    have positive : 1 ≤ timer.count - 1 := by omega
    refine ⟨{ trace with nextCount := timer.count - 1 - 1 }, ?_, follows.created, follows.started,
      follows.ended, follows.present, fun other member => ?_⟩
    · exact Trace.read_single (by simp [Trace.permits, follows.created, early, expected, positive])
    · rw [List.mem_singleton.mp member]
  | @lastTick timer ptr listed named waiting last =>
    have early : trace.started = false := by rw [follows.started, waiting]; rfl
    refine ⟨{ trace with started := true }, ?_, follows.created, rfl, ?_, follows.present,
      fun other member => absurd member (by simp)⟩
    · rw [observed_starting]
      exact Trace.read_single (by simp [Trace.permits, follows.created, early])
    · change trace.ended = _
      rw [follows.ended, waiting]
      rfl
  | @relays cidHash msg player found =>
    have present : cidHash ∈ trace.present := by
      rw [follows.present]
      exact OrderedMap.mem_of_lookup found
    refine ⟨trace, ?_, follows⟩
    rw [observed_passMessage, inv.seated.keyed _ _ found]
    exact Trace.read_single (by simp [Trace.permits, follows.created, present])

/-- Every run of a room is read to its end. -/
theorem run_follows {roomClass : RoomClass} {roomId creationTime : Int} {roomConfig : RoomConfig}
    (run : (machine roomClass roomId creationTime roomConfig).Run ops s) :
    ∃ trace, ({} : Trace).read (observed s.2) = some trace ∧ Follows trace s.1 := by
  refine Transition.Machine.Run.induction
    (P := fun _ s => ∃ trace, ({} : Trace).read (observed s.2) = some trace ∧ Follows trace s.1)
    (Follows.create roomClass roomId creationTime roomConfig) ?_ run
  intro ops s op t before ⟨trace, reads, follows⟩ step
  have inv := run_inv before
  obtain ⟨calls, change, logged⟩ := step_change inv step
  obtain ⟨after, further, keeps⟩ := follows.change inv change
  refine ⟨after, ?_, keeps⟩
  rw [logged, observed_append, Trace.read_append, reads]
  exact further

theorem players_hashes (seated : r.Seated) :
    r.players.map (fun player => player.qconnection.cidHashVal) = r.playermap.keys := by
  rw [← TreeMap.map_fst_toList_eq_keys, players, List.map_map]
  apply List.map_congr_left
  rintro ⟨cidHash, player⟩ member
  exact seated.keyed _ _ (TreeMap.mem_toList_iff_getElem?_eq_some.mp member)

theorem observed_removals (players : List Player) : observed (players.map onroomPlayerRemoved) =
    (players.map fun player => (player.pid, player.qconnection.cidHashVal)).map fun player =>
      .roomEventPlayerRemoved player.1 player.2 := by
  induction players with
  | nil => rfl
  | cons player rest ih =>
    change _ :: observed _ = _
    rw [ih]
    rfl

/-- The destructor removes every player that is still seated. -/
theorem Follows.destroy (follows : Follows trace r) (seated : r.Seated) (hostId portId : Qstring) :
    ∃ after, trace.read (observed (r.destroy hostId portId)) = some after ∧ after.present = ∅ := by
  have removals : observed (r.destroy hostId portId) =
      (r.players.map fun player => (player.pid, player.qconnection.cidHashVal)).map fun player =>
        .roomEventPlayerRemoved player.1 player.2 := by
    simp only [Room.destroy]
    rw [observed_append, observed_append, observed_kickAll, observed_removals]
    exact List.append_nil _
  have hashes : (r.players.map fun player => (player.pid, player.qconnection.cidHashVal)).map Prod.snd =
      r.playermap.keys := by
    rw [List.map_map]
    exact players_hashes seated
  obtain ⟨after, reads, left⟩ := Trace.read_removals _ trace follows.created
    (hashes ▸ TreeMap.nodup_keys) fun player member => by
      rw [follows.present, ← TreeMap.mem_keys, ← hashes]
      exact List.mem_map_of_mem member
  refine ⟨after, removals ▸ reads, Finset.eq_empty_of_forall_notMem fun cidHash member => ?_⟩
  obtain ⟨present, absent⟩ := (left cidHash).mp member
  rw [hashes, TreeMap.mem_keys, ← follows.present] at absent
  exact absent present

/-- A player has left a waiting room with too few players for a countdown. -/
structure Drops (r : Room) (q : QconnIo) : Prop where
  seated : q.cidHashVal ∈ r.playermap
  waiting : r.state = .roomWaiting
  few : (r.vacated q).getPlaymapCount < r.roomConfig.minPlayers

/-- Such a leave, and nothing else, is told as a cancelled countdown. -/
theorem Change.cancelled_iff (change : Change r op r' calls) :
    .roomEventCountdownCancelled ∈ observed calls ↔ ∃ q, op = .remove q ∧ r.Drops q := by
  have spared : ∀ {q : QconnIo} {calls : List RoomCall},
    .roomEventCountdownCancelled ∉ observed calls → ¬ r.Drops q →
      (.roomEventCountdownCancelled ∈ observed calls ↔ ∃ q', Op.remove q = .remove q' ∧
        r.Drops q') := by
    intro q calls untold stays
    refine iff_of_false untold ?_
    rintro ⟨q', same, drops⟩
    cases same
    exact stays drops
  cases change with
  | rejected | ignores => simp [observed]
  | seated | countsDown => simp [observed_welcome]
  | fills => simp [observed_welcome, observed_starting]
  | ticks => simp [observed, RoomCall.event?]
  | lastTick => simp [observed_starting]
  | relays => simp [observed_passMessage]
  | forgets absent =>
    refine spared (by simp [observed]) fun drops => ?_
    exact OrderedMap.not_mem_iff_lookup.mpr absent drops.seated
  | leaves found waiting enough =>
    exact spared (by simp [observed_farewell]) fun drops => absurd drops.few (Int.not_lt.mpr enough)
  | cancels found waiting few =>
    refine iff_of_true ?_ ⟨_, rfl, OrderedMap.mem_of_lookup found, waiting, few⟩
    rw [observed_append]
    exact List.mem_append_right _ (List.mem_cons_self ..)
  | ends found started =>
    exact spared (by simp [observed_farewell, observed_ending]) fun drops => by
      have waiting := drops.waiting
      rw [started] at waiting
      contradiction
  | leavesEnded found ended =>
    exact spared (by simp [observed_farewell]) fun drops => by
      have waiting := drops.waiting
      rw [ended] at waiting
      contradiction
  | keeps found started | drops found started =>
    exact spared (by simp [observed_farewell]) fun drops => started_ne_waiting started drops.waiting

/-- The destructor tells of the players that it removes and of nothing else. -/
theorem mem_observed_destroy {hostId portId : Qstring}
    (told : event ∈ observed (r.destroy hostId portId)) :
    ∃ pid cidHash, event = .roomEventPlayerRemoved pid cidHash := by
  simp only [destroy, observed_append, observed_kickAll, observed_removals, List.nil_append] at told
  rcases List.mem_append.mp told with removed | more
  · obtain ⟨player, _, rfl⟩ := List.mem_map.mp removed
    exact ⟨_, _, rfl⟩
  · contradiction

end Room
end Gearsdk
