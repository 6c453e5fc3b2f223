import Gearsdk.Room.Countdown
import Gearsdk.Roomserver.Observed

/-! Whether what the observer is told of a room is so: that a cancelled countdown
was running, and that a match which started has ended before its room goes. A
waiting room tells of a cancelled countdown on every leave below its minimum, and
a sweep deletes a room in the middle of a match. -/
namespace Gearsdk.Roomserver
open Std Transition

variable {site : Site} {s t : Roomserver} {e : Event} {p : Nat} {r : Room}

/-- The events that a step has added for one room. -/
def emitted (s t : Roomserver) (p : Nat) : List RoomEvent :=
  observed ((t.logOf p).drop (s.logOf p).length)

/-- The countdown of the room is running. -/
def Pending (s : Roomserver) (p : Nat) : Prop :=
  ∃ r, s.roomHeap[p]? = some r ∧ r.scheduler.timers ≠ []

/-- What the step from `s` to `t` tells the observer is so. -/
structure Truthful (s t : Roomserver) : Prop where
  cancelled : ∀ p, .roomEventCountdownCancelled ∈ emitted s t p → Pending s p
  ended : ∀ p, p ∈ s.roomHeap → p ∉ t.roomHeap →
    .roomEventStart ∈ observed (t.logOf p) → .roomEventEnd ∈ observed (t.logOf p)

/-- The event is the loss of a connection that is entered for the room. -/
structure Leaves (s : Roomserver) (e : Event) (q : QconnIo) (p : Nat) (r : Room) : Prop where
  event : e = .destroyConnection q.ptr
  found : ∃ connection, s.conns[q.ptr]? = some connection ∧ connection.cidHashVal = q.cidHashVal
  mapped : s.connectionMap[q.cidHashVal]? = some p
  live : s.roomHeap[p]? = some r

/-- Nobody leaves a waiting room that has too few players, and no sweep finds a
room in the middle of a match. -/
structure Careful (s : Roomserver) (e : Event) : Prop where
  leaves : ∀ q p r, Leaves s e q p r → q.cidHashVal ∈ r.playermap → r.state = .roomWaiting →
    r.roomConfig.minPlayers ≤ r.getPlaymapCount
  sweeps : e = .checkZombieRooms → ∀ p r, s.roomHeap[p]? = some r → s.Zombie p →
    r.state ≠ .roomStart

/-! ### What a step adds -/

theorem emitted_append (logged : t.logOf p = s.logOf p ++ added) :
    emitted s t p = observed added := by
  rw [emitted, logged, List.drop_left]

theorem logOf_same (log : t.log = s.log) (p : Nat) : t.logOf p = s.logOf p ++ [] := by
  rw [List.append_nil, logOf, log, logOf]

theorem logOf_updateRoom (change : Room.Change r op r' calls) (q : Nat) :
    (s.updateRoom site p r' calls).logOf q = s.logOf q ++ if p = q then calls else [] := by
  rw [logOf, (updateRoom_frame site s p change).2.1, logOf_append]
  rfl

theorem logOf_deleteRoom (s : Roomserver) (p : Nat) (r : Room) (q : Nat) :
    (s.deleteRoom site p r).logOf q =
      s.logOf q ++ if p = q then r.destroy site.hostId site.portId else [] := by
  rw [logOf, deleteRoom_eq, logOf_append]
  rfl

/-- The calls of the destructor of a live room. -/
def lastCalls (site : Site) (s : Roomserver) (p : Nat) : List RoomCall :=
  match s.roomHeap[p]? with
  | some r => r.destroy site.hostId site.portId
  | none => []

theorem Sweeps.logOf (sweeps : Sweeps site s zombies t) (p : Nat) :
    t.logOf p = s.logOf p ++ if p ∈ zombies then lastCalls site s p else [] := by
  induction sweeps with
  | done s => simp
  | @next s t room zombie zombies found rest ih =>
    have first : (s.swept site room zombie).logOf p =
        s.logOf p ++ if room = p then zombie.destroy site.hostId site.portId else [] :=
      logOf_deleteRoom _ room zombie p
    have heap : (s.swept site room zombie).roomHeap[p]? = if room = p then none
        else s.roomHeap[p]? := by
      rw [swept, deleteRoom_eq, OrderedMap.lookup_erase]
      rfl
    rw [ih, first, lastCalls, heap, lastCalls]
    by_cases same : room = p
    · subst same
      simp [found]
    · simp [same, Ne.symm same]

theorem silent_destroy (r : Room) (site : Site) :
    .roomEventCountdownCancelled ∉ observed (r.destroy site.hostId site.portId) := by
  intro told
  obtain ⟨_, _, same⟩ := Room.mem_observed_destroy told
  contradiction

theorem silent_lastCalls (site : Site) (s : Roomserver) (p : Nat) :
    .roomEventCountdownCancelled ∉ observed (lastCalls site s p) := by
  simp only [lastCalls]
  split
  · exact silent_destroy _ site
  · simp [observed]

/-! ### Cancelled countdowns -/

/-- A step that takes nobody out of a room tells of no cancelled countdown. -/
theorem untold (logged : t.logOf p = s.logOf p ++ added)
    (silent : .roomEventCountdownCancelled ∉ observed added) (stays : ∀ q r, ¬ Leaves s e q p r) :
    .roomEventCountdownCancelled ∈ emitted s t p ↔ ∃ q r, Leaves s e q p r ∧ r.Drops q := by
  rw [emitted_append logged]
  refine iff_of_false silent ?_
  rintro ⟨q, r, leaves, _⟩
  exact stays q r leaves

theorem silent_operation (change : Room.Change r op r' calls) (stays : ∀ q, op ≠ .remove q) :
    .roomEventCountdownCancelled ∉ observed calls := by
  rw [change.cancelled_iff]
  rintro ⟨q, same, _⟩
  exact stays q same

/-- The leave of `q` tells of a cancelled countdown exactly when `q` drops out of
a waiting room that then has too few players. -/
theorem told_by_leave {q : QconnIo} {connection : Connection} (rest : List RoomCall)
    (sound : Sound site s) (found : s.conns[q.ptr]? = some connection)
    (same : connection.cidHashVal = q.cidHashVal)
    (mapped : s.connectionMap[q.cidHashVal]? = some room) (live : s.roomHeap[room]? = some r)
    (logged : t.logOf p = s.logOf p ++ if room = p then (r.apply (.remove q)).2 ++ rest else [])
    (silent : .roomEventCountdownCancelled ∉ observed rest) :
    .roomEventCountdownCancelled ∈ emitted s t p ↔
      ∃ q' r', Leaves s (.destroyConnection q.ptr) q' p r' ∧ r'.Drops q' := by
  have change := Room.change_of_inv (sound.inv live) (rfl : r.allows (.remove q) = true)
  have only : ∀ q' r', Leaves s (.destroyConnection q.ptr) q' p r' → q' = q ∧ room = p ∧
      r' = r := by
    intro q' r' leaves
    obtain ⟨other, found', same'⟩ := leaves.found
    have samePtr : q'.ptr = q.ptr := (Event.destroyConnection.inj leaves.event).symm
    rw [samePtr, found] at found'
    cases Option.some.inj found'
    obtain rfl : q' = q := by
      cases q
      cases q'
      simp_all
    have samePlace := leaves.mapped
    rw [mapped] at samePlace
    cases Option.some.inj samePlace
    exact ⟨rfl, rfl, Option.some.inj (leaves.live.symm.trans live)⟩
  rw [emitted_append logged]
  by_cases here : room = p
  · subst here
    rw [if_pos rfl, observed_append, List.mem_append, or_iff_left silent, change.cancelled_iff]
    constructor
    · rintro ⟨q', sameOp, drops⟩
      cases sameOp
      exact ⟨q, r, ⟨rfl, ⟨connection, found, same⟩, mapped, live⟩, drops⟩
    · rintro ⟨q', r', leaves, drops⟩
      obtain ⟨rfl, _, rfl⟩ := only q' r' leaves
      exact ⟨q', rfl, drops⟩
  · rw [if_neg here]
    refine iff_of_false (by simp [observed]) ?_
    rintro ⟨q', r', leaves, _⟩
    exact here (only q' r' leaves).2.1

theorem logOf_vacates (sound : Sound site s) (live : s.roomHeap[room]? = some r) (q : QconnIo)
    (p : Nat) :
    (s.vacates site q room r).logOf p = s.logOf p ++ if room = p then (r.apply (.remove q)).2
      else [] :=
  logOf_updateRoom (Room.change_of_inv (sound.inv live) (rfl : r.allows (.remove q) = true)) p

theorem logOf_conns (s : Roomserver) (conns : TreeMap Nat Connection) (p : Nat) :
    ({ s with conns := conns } : Roomserver).logOf p = s.logOf p := rfl

theorem logOf_listed (s : Roomserver) (waitingRooms rooms : List Nat) (p : Nat) :
    ({ s with waitingRooms := waitingRooms, rooms := rooms } : Roomserver).logOf p = s.logOf p :=
  rfl

/-- The room is deleted that its last player leaves. -/
theorem logOf_leavesLast (conns : TreeMap Nat Connection) (sound : Sound site s)
    (live : s.roomHeap[room]? = some r) (q : QconnIo) (same : left = s.vacates site q room r)
    (waitingRooms rooms : List Nat) (p : Nat) :
    ({ (({ left with waitingRooms := waitingRooms, rooms := rooms } : Roomserver).deleteRoom site room
        (r.apply (.remove q)).1) with conns := conns } : Roomserver).logOf p =
      s.logOf p ++
        if room = p then (r.apply (.remove q)).2 ++
          (r.apply (.remove q)).1.destroy site.hostId site.portId else [] := by
  rw [logOf_conns, logOf_deleteRoom, logOf_listed, same, logOf_vacates sound live,
    List.append_assoc]
  split <;> rfl

theorem logOf_joinNewRoom (s : Roomserver) (q : QconnIo) (msg : MsgRoomMatchRequest) (p : Nat) :
    (s.joinNewRoom site q msg).logOf p = s.logOf p ++
      if s.roomIdCounter = p then
        [.observer .roomEventCreate] ++ ((Room.create site.roomClass s.roomIdCounter s.evNow
          (.ofMsg msg.roomConfig)).1.apply (.tryAdd q msg.pid 0)).2
      else [] := by
  have inv := Room.create_inv site.roomClass s.roomIdCounter s.evNow (.ofMsg msg.roomConfig)
  have change := Room.change_tryAdd inv.initialised q msg.pid 0
  have created : (s.createWaitingRoom site msg.roomConfig).1.logOf p =
      s.logOf p ++ if s.roomIdCounter = p then [.observer .roomEventCreate] else [] :=
    logOf_append s.log s.roomIdCounter p [.observer .roomEventCreate]
  have entered :
    ((s.createWaitingRoom site msg.roomConfig).1.updateRoom site s.roomIdCounter _ _).logOf p = _ :=
    logOf_updateRoom change p
  rw [joinNewRoom_eq]
  refine entered.trans ?_
  rw [created, List.append_assoc]
  split <;> rfl

theorem Effect.cancelled_iff (sound : Sound site s) (effect : Effect site s e t) (p : Nat) :
    .roomEventCountdownCancelled ∈ emitted s t p ↔ ∃ q r, Leaves s e q p r ∧ r.Drops q := by
  have silence : .roomEventCountdownCancelled ∉ observed [] := by simp [observed]
  cases effect with
  | connect | connected | hi | ignored | shutdown | clock | keyExpires | keyExpired =>
    exact untold (logOf_same rfl p) silence fun _ _ leaves => by cases leaves.event
  | @request doc rq _ buf ptr connection requests joined =>
    have stays : ∀ q r, ¬ Leaves s (.message ptr buf doc) q p r :=
      fun _ _ leaves => by cases leaves.event
    cases joined with
    | alreadySeated => exact untold (logOf_same rfl p) silence stays
    | @joins room prev r base outcome found accepted same =>
      have change := Room.change_of_inv (sound.inv found)
        (rfl : r.allows (.tryAdd ⟨ptr, connection.cidHashVal⟩ rq.pid prev) = true)
      refine untold (logOf_updateRoom change p) ?_ stays
      split
      · exact silent_operation change (by simp)
      · exact silence
    | @creates base outcome same =>
      have inv := Room.create_inv site.roomClass s.roomIdCounter s.evNow (.ofMsg rq.roomConfig)
      have change := Room.change_tryAdd inv.initialised ⟨ptr, connection.cidHashVal⟩ rq.pid 0
      refine untold (logOf_joinNewRoom _ _ _ p) ?_ stays
      split
      · have entered := silent_operation change (by simp)
        rw [observed_append, List.mem_append]
        exact not_or.mpr ⟨by simp [observed, RoomCall.event?], entered⟩
      · exact silence
  | @chat buf _ ptr room connection r found mapped live present =>
    have change := Room.change_of_inv (sound.inv live)
      (rfl : r.allows (.message connection.cidHashVal buf) = true)
    refine untold (logOf_updateRoom change p) ?_ fun _ _ leaves => by cases leaves.event
    split
    · exact silent_operation change (by simp)
    · exact silence
  | @unseated ptr connection found unmapped =>
    refine untold (logOf_same rfl p) silence fun q r leaves => ?_
    obtain ⟨other, found', same⟩ := leaves.found
    have mapped := leaves.mapped
    have samePtr := leaves.event
    cases samePtr
    cases Option.some.inj (found.symm.trans found')
    rw [← same, unmapped] at mapped
    contradiction
  | @leaves ptr room connection r found mapped live stays =>
    refine told_by_leave [] sound (q := ⟨ptr, connection.cidHashVal⟩) found rfl mapped live ?_ silence
    rw [List.append_nil]
    exact logOf_vacates sound live ⟨ptr, connection.cidHashVal⟩ p
  | @leavesLast left ptr room connection r found mapped live ended empty same listed =>
    have logged := logOf_leavesLast (s.conns.erase ptr) sound live ⟨ptr, connection.cidHashVal⟩ same
      (left.waitingRooms.filter (· ≠ room)) (left.rooms.filter (· ≠ room)) p
    exact told_by_leave
      ((r.apply (.remove ⟨ptr, connection.cidHashVal⟩)).1.destroy site.hostId site.portId)
      sound (q := ⟨ptr, connection.cidHashVal⟩) found rfl mapped live logged (silent_destroy _ site)
  | @tick room timer r live active =>
    have change := Room.change_of_inv (sound.inv live) active
    refine untold (logOf_updateRoom change p) ?_ fun _ _ leaves => by cases leaves.event
    split
    · exact silent_operation change (by simp)
    · exact silence
  | @sweeps zombies _ sweeps listed =>
    refine untold (sweeps.logOf p) ?_ fun _ _ leaves => by cases leaves.event
    split
    · exact silent_lastCalls site s p
    · exact silence

theorem Lives.counting (lives : Lives site p life) : life.1.Counting := by
  obtain ⟨_, _, _, run⟩ := lives
  exact Room.run_counting run

/-- A cancelled countdown that is told of was running unless the room had too
few players already. -/
theorem cancelled_truthful_iff (run : (machine site).Run es s) (step : (machine site).Step s e t) :
    (∀ p, .roomEventCountdownCancelled ∈ emitted s t p → Pending s p) ↔
      ∀ q p r, Leaves s e q p r → q.cidHashVal ∈ r.playermap → r.state = .roomWaiting →
        r.roomConfig.minPlayers ≤ r.getPlaymapCount := by
  have sound := sound_of_run run
  have effect := step_effect step
  constructor
  · intro truthful q p r leaves seated waiting
    by_contra few
    obtain ⟨player, found⟩ := OrderedMap.mem_iff_lookup.mp seated
    have shrinks := Room.getPlaymapCount_vacated found
    have drops : r.Drops q := ⟨seated, waiting, by omega⟩
    obtain ⟨r', live, running⟩ :=
      truthful p ((effect.cancelled_iff sound p).mpr ⟨q, r, leaves, drops⟩)
    cases Option.some.inj (leaves.live.symm.trans live)
    exact few ((sound.inv live).enough running)
  · intro careful p told
    obtain ⟨q, r, leaves, drops⟩ := (effect.cancelled_iff sound p).mp told
    have lives := sound.lives leaves.live
    have enough := careful q p r leaves drops.seated drops.waiting
    exact ⟨r, leaves.live, (lives.inv.counts_iff lives.counting drops.waiting drops.seated).mpr enough⟩

/-! ### Ended matches -/

/-- The start and the end of a room's match as its state and its log have them. -/
theorem Lives.told (lives : Lives site p (r, calls)) :
    (.roomEventStart ∈ observed (calls ++ r.destroy site.hostId site.portId) ↔
      States.roomStart.rank ≤ r.state.rank) ∧
    (.roomEventEnd ∈ observed (calls ++ r.destroy site.hostId site.portId) ↔
      r.state = .roomEnd) := by
  obtain ⟨trace, reads, follows⟩ := lives.follows
  have unstarted : .roomEventStart ∉ observed (r.destroy site.hostId site.portId) := by
    intro told
    obtain ⟨_, _, same⟩ := Room.mem_observed_destroy told
    contradiction
  have unended : .roomEventEnd ∉ observed (r.destroy site.hostId site.portId) := by
    intro told
    obtain ⟨_, _, same⟩ := Room.mem_observed_destroy told
    contradiction
  rw [observed_append, List.mem_append, List.mem_append, or_iff_left unstarted, or_iff_left unended]
  have started := Trace.started_iff reads
  have ended := Trace.ended_iff reads
  rw [follows.started, decide_eq_true_iff] at started
  rw [follows.ended, decide_eq_true_iff] at ended
  exact ⟨by simpa using started.symm, by simpa using ended.symm⟩

/-- What has happened to a room that is deleted: it is a zombie, or its last
player has left and its match has ended. -/
theorem Effect.destroyed (sound : Sound site s) (effect : Effect site s e t)
    (live : s.roomHeap[p]? = some r) (gone : p ∉ t.roomHeap) :
    ∃ r' calls, Lives site p (r', calls) ∧ t.logOf p = calls ++ r'.destroy site.hostId site.portId ∧
      (e = .checkZombieRooms ∧ s.Zombie p ∧ r' = r ∨
        e ≠ .checkZombieRooms ∧ r'.state = .roomEnd) := by
  have kept : ¬ p ∉ s.roomHeap := fun absent => absent (OrderedMap.mem_of_lookup live)
  have inserted : ∀ {room : Nat} {r₁ : Room}, ¬ p ∉ s.roomHeap.insert room r₁ := fun absent =>
    absent ((OrderedMap.mem_insert_iff _ _ _ _).mpr (.inr (OrderedMap.mem_of_lookup live)))
  cases effect with
  | connect | connected | hi | ignored | shutdown | unseated | clock | keyExpires | keyExpired =>
    exact absurd gone kept
  | @request doc rq _ buf ptr connection requests joined =>
    cases joined with
    | alreadySeated => exact absurd gone kept
    | @joins room prev r base outcome found accepted same =>
      rw [heap_updateRoom (sound_matched sound ptr connection) found rfl] at gone
      exact absurd gone inserted
    | @creates base outcome same =>
      rw [OrderedMap.not_mem_iff_lookup, heap_joinNewRoom] at gone
      split at gone
      · contradiction
      · exact absurd (live.symm.trans gone) (by simp)
  | chat found mapped roomLive present =>
    rw [heap_updateRoom sound roomLive rfl] at gone
    exact absurd gone inserted
  | @leaves ptr room connection r₁ found mapped roomLive stays =>
    have gone : p ∉ (s.vacates site ⟨ptr, connection.cidHashVal⟩ room r₁).roomHeap := gone
    rw [heap_vacates sound roomLive] at gone
    exact absurd gone inserted
  | @leavesLast left ptr room connection r₁ found mapped roomLive ended empty same listed =>
    have logged :=
      logOf_leavesLast (s.conns.erase ptr) sound roomLive ⟨ptr, connection.cidHashVal⟩ same
      (left.waitingRooms.filter (· ≠ room)) (left.rooms.filter (· ≠ room)) p
    rw [deleteRoom_eq] at gone
    change p ∉ left.roomHeap.erase room at gone
    rw [OrderedMap.not_mem_iff_lookup, OrderedMap.lookup_erase, same, heap_vacates sound roomLive,
      OrderedMap.lookup_insert] at gone
    by_cases here : room = p
    · subst here
      rw [if_pos rfl, ← List.append_assoc] at logged
      exact ⟨_, _, (sound.lives roomLive).apply rfl, logged, .inr ⟨by simp, ended⟩⟩
    · rw [if_neg here, if_neg here] at gone
      exact absurd (live.symm.trans gone) (by simp)
  | tick roomLive active =>
    rw [heap_updateRoom sound roomLive active] at gone
    exact absurd gone inserted
  | @sweeps zombies _ sweeps listed =>
    rw [OrderedMap.not_mem_iff_lookup, sweeps.heap] at gone
    split at gone
    · rename_i member
      refine ⟨r, s.logOf p, sound.lives live, ?_, .inl ⟨rfl, listed p member, rfl⟩⟩
      rw [sweeps.logOf, if_pos member, lastCalls, live]
    · exact absurd (live.symm.trans gone) (by simp)

theorem zombiesAmong_all (found : s.zombiesAmong timeout candidates = .ok zombies)
    (member : p ∈ candidates) (live : s.roomHeap[p]? = some r)
    (old : timeout ≤ r.sinceCreation s.evNow) : p ∈ zombies := by
  induction candidates generalizing zombies with
  | nil => contradiction
  | cons first rest ih =>
    simp only [zombiesAmong] at found
    split at found
    · rename_i r' others liveFirst searched
      cases found
      rcases List.mem_cons.mp member with rfl | later
      · cases Option.some.inj (live.symm.trans (deref_ok.mp liveFirst))
        rw [if_pos old]
        exact List.mem_cons_self ..
      · have inside := ih searched later
        split
        · exact List.mem_cons_of_mem _ inside
        · exact inside
    · contradiction
    · contradiction

/-- A sweep leaves no zombie. -/
theorem zombie_swept (step : (machine site).Step s .checkZombieRooms t) (zombie : s.Zombie p) :
    p ∉ t.roomHeap := by
  have checked : s.onTimerCheckZombieRooms site = .ok t := step.2
  obtain ⟨r, live, old⟩ := zombie
  simp only [onTimerCheckZombieRooms] at checked
  split at checked
  · rename_i waiting started waitingFound startedFound
    rw [OrderedMap.not_mem_iff_lookup, (sweepZombies_sweeps checked).heap, if_pos]
    rcases old with ⟨member, old⟩ | ⟨member, old⟩
    · exact List.mem_append_left _ (zombiesAmong_all waitingFound member live old)
    · exact List.mem_append_right _ (zombiesAmong_all startedFound member live old)
  · contradiction
  · contradiction

/-- Every deleted room whose match started has ended it unless a sweep found the
room in the middle of the match. -/
theorem ended_truthful_iff (run : (machine site).Run es s) (step : (machine site).Step s e t) :
    (∀ p, p ∈ s.roomHeap → p ∉ t.roomHeap →
      .roomEventStart ∈ observed (t.logOf p) → .roomEventEnd ∈ observed (t.logOf p)) ↔
      (e = .checkZombieRooms → ∀ p r, s.roomHeap[p]? = some r → s.Zombie p →
        r.state ≠ .roomStart) := by
  have sound := sound_of_run run
  have effect := step_effect step
  constructor
  · rintro truthful rfl p r live zombie started
    have gone := zombie_swept step zombie
    obtain ⟨r', calls, lives, logged, reason⟩ := effect.destroyed sound live gone
    have ends := truthful p (OrderedMap.mem_of_lookup live) gone
    rw [logged, lives.told.1, lives.told.2] at ends
    rcases reason with ⟨_, _, rfl⟩ | ⟨other, _⟩
    · exact absurd (ends (by rw [started])) (by simp [started])
    · contradiction
  · intro careful p present gone started
    obtain ⟨r, live⟩ := OrderedMap.mem_iff_lookup.mp present
    obtain ⟨r', calls, lives, logged, reason⟩ := effect.destroyed sound live gone
    rw [logged, lives.told.1] at started
    rw [logged, lives.told.2]
    rcases reason with ⟨same, zombie, rfl⟩ | ⟨_, ended⟩
    · have unstarted := careful same p r' live zombie
      cases state : r'.state <;> simp_all [States.rank]
    · exact ended

/-- In a run the observer is told what is so exactly when nobody leaves a waiting
room that has too few players, and no sweep finds a room in the middle of its
match. -/
theorem notifications_truthful_iff (run : (machine site).Run es s) :
    (∀ fs e s t, fs ++ [e] <+: es → (machine site).Run fs s → (machine site).Step s e t → Truthful s t) ↔
      (machine site).Meets Careful es := by
  constructor
  · intro truthful fs e s' within before
    obtain ⟨rest, rfl⟩ := within
    obtain ⟨t, upto, _⟩ := run.split
    obtain ⟨s'', before', step⟩ := upto.snoc_inv
    cases before.unique before'
    obtain ⟨cancelled, ended⟩ := truthful fs e s' t (List.prefix_append _ rest) before step
    constructor
    · exact (cancelled_truthful_iff before step).mp cancelled
    · exact (ended_truthful_iff before step).mp ended
  · intro careful fs e s' t within before step
    obtain ⟨leaves, sweeps⟩ := careful fs e s' within before
    constructor
    · exact (cancelled_truthful_iff before step).mpr leaves
    · exact (ended_truthful_iff before step).mpr sweeps

/-! ### Examples -/

def carefulTest (s : Roomserver) : Event → Bool
  | .destroyConnection ptr =>
      match s.conns[ptr]? with
      | none => true
      | some connection =>
          match s.connectionMap[connection.cidHashVal]? with
          | none => true
          | some p =>
            (s.roomHeap[p]?).all fun r => decide (r.roomConfig.minPlayers ≤ r.getPlaymapCount)
  | .checkZombieRooms =>
      (s.waitingRooms ++ s.rooms).all fun p => (s.roomHeap[p]?).all (·.state ≠ .roomStart)
  | _ => true

theorem careful_of_test (s : Roomserver) (e : Event) (passed : carefulTest s e = true) :
    Careful s e := by
  constructor
  · rintro q p r leaves - -
    obtain ⟨connection, found, same⟩ := leaves.found
    have mapped := leaves.mapped
    rw [← same] at mapped
    rw [leaves.event] at passed
    simpa [carefulTest, found, mapped, leaves.live] using passed
  · rintro rfl p r live ⟨r', live', old⟩ started
    have listed : p ∈ s.waitingRooms ++ s.rooms := by
      rcases old with ⟨waits, _⟩ | ⟨starts, _⟩
      · exact List.mem_append_left _ waits
      · exact List.mem_append_right _ starts
    have quiet := List.all_eq_true.mp passed p listed
    simp [live, started] at quiet

/-- A lone player whose countdown is cancelled by his leave, in a room that a
sweep then deletes. -/
def visit : List Event :=
  arrival 1 11 { roomConfig := { min := 1, max := 3 } } ++ [.destroyConnection 1, .clock 20000,
    .checkZombieRooms]

theorem notifications_truthful_visit :
    ∃ s, (machine ⟨.gameRoom, [], []⟩).Run visit s ∧ s.roomHeap.size = 0 ∧
      observed (s.logOf 0) = [.roomEventCreate, .roomEventPlayerAdded [] 11,
        .roomEventPlayerRemoved [] 11,
        .roomEventCountdownCancelled] ∧
      ∀ fs e s t, fs ++ [e] <+: visit → (machine ⟨.gameRoom, [], []⟩).Run fs s →
        (machine ⟨.gameRoom, [], []⟩).Step s e t → Truthful s t := by
  have shown : ((machine ⟨.gameRoom, [], []⟩).exec {} visit).map (fun s =>
    (s.roomHeap.size, observed (s.logOf 0))) =
      some (0, [.roomEventCreate, .roomEventPlayerAdded [] 11, .roomEventPlayerRemoved [] 11,
        .roomEventCountdownCancelled]) := by decide +kernel
  have passed : (machine ⟨.gameRoom, [], []⟩).checks carefulTest {} visit = true := by
    decide +kernel
  have careful : (machine ⟨.gameRoom, [], []⟩).Meets Careful visit :=
    fun _ _ _ inside path => Machine.meets_of_checks careful_of_test passed inside path
  obtain ⟨s, run, same⟩ := Machine.exec_observe shown
  simp only [Prod.mk.injEq] at same
  exact ⟨s, run, same.1, same.2, (notifications_truthful_iff run).mpr careful⟩

/-- The first of two players leaves before the second has come, and is told to
have cancelled a countdown. In another run the match of two goes on until a sweep
deletes its room. -/
theorem notifications_untruthful :
    (∃ es e s t, (machine ⟨.gameRoom, [], []⟩).Run es s ∧ (machine ⟨.gameRoom, [], []⟩).Step s e t ∧
      .roomEventCountdownCancelled ∈ emitted s t 0 ∧ ¬ Pending s 0) ∧
    (∃ es e s t, (machine ⟨.gameRoom, [], []⟩).Run es s ∧ (machine ⟨.gameRoom, [], []⟩).Step s e t ∧
      0 ∈ s.roomHeap ∧ 0 ∉ t.roomHeap ∧ .roomEventStart ∈ observed (t.logOf 0) ∧
        .roomEventEnd ∉ observed (t.logOf 0)) := by
  have lonely :
    (((machine ⟨.gameRoom, [], []⟩).exec {} (arrival 1 11 { roomConfig := { min := 2, max := 2 } })).bind
      fun s => ((machine ⟨.gameRoom, [], []⟩).exec s [.destroyConnection 1]).map fun t =>
        (emitted s t 0, (s.roomHeap[0]?).map fun r => r.scheduler.timers.length)) =
      some ([.roomEventPlayerRemoved [] 11, .roomEventCountdownCancelled], some 0) := by
        decide +kernel
  have swept :
    (((machine ⟨.gameRoom, [], []⟩).exec {} (arrival 1 11 { roomConfig := { min := 2, max := 2 } } ++
        arrival 2 22 { roomConfig := { min := 2, max := 2 } } ++ [.clock 3600000])).bind
      fun s => ((machine ⟨.gameRoom, [], []⟩).exec s [.checkZombieRooms]).map fun t =>
        (s.roomHeap.contains 0, t.roomHeap.contains 0, observed (t.logOf 0))) =
      some (true, false, [.roomEventCreate, .roomEventPlayerAdded [] 11, .roomEventPlayerAdded [] 22,
        .roomEventStart, .roomEventPlayerRemoved [] 11, .roomEventPlayerRemoved [] 22]) := by
          decide +kernel
  constructor
  · obtain ⟨s, t, run, last, same⟩ := Machine.exec_observe_both lonely
    simp only [Prod.mk.injEq] at same
    refine ⟨_, _, s, t, run, last.single_inv, ?_, ?_⟩
    · rw [same.1]
      decide
    · rintro ⟨r, live, running⟩
      have idle := same.2
      rw [live] at idle
      simp [running] at idle
  · obtain ⟨s, t, run, last, same⟩ := Machine.exec_observe_both swept
    simp only [Prod.mk.injEq] at same
    obtain ⟨before, after, told⟩ := same
    refine ⟨_, _, s, t, run, last.single_inv, TreeMap.mem_iff_contains.mpr before, ?_, ?_, ?_⟩
    · rw [TreeMap.mem_iff_contains, after]
      decide
    · rw [told]
      decide
    · rw [told]
      decide

end Gearsdk.Roomserver
