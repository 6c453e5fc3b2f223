import Gearsdk.Roomserver.Effect
import Mathlib.Logic.Relation

/-! Rooms between the server's lists. Every effect is a chain of primitive steps:
one operation on one live room, the creation of a room, the deletion of a room,
a change of a counter, or something that concerns no room. Along every chain the
two lists say which rooms are waiting and which have started, and every room
leads the life of a room on its own. -/
namespace Gearsdk.Roomserver
open Std

inductive Action where
  | frame
  | operate (room : Nat) (op : Room.Op)
  | create (msg : MsgRoomConfig)
  | delete (room : Nat) (r : Room)

inductive Primitive (site : Site) (s : Roomserver) : Action → Roomserver → Prop where
  | frame (heap : t.roomHeap = s.roomHeap) (waiting : t.waitingRooms = s.waitingRooms)
      (started : t.rooms = s.rooms) (counter : t.roomIdCounter = s.roomIdCounter)
      (redis : t.hiredis = s.hiredis) (log : t.log = s.log) : Primitive site s .frame t
  | operate {p : Nat} {r : Room} (live : s.roomHeap[p]? = some r) (allowed : r.allows op = true) :
      Primitive site s (.operate p op) (s.updateRoom site p (r.apply op).1 (r.apply op).2)
  | create (msg : MsgRoomConfig) : Primitive site s (.create msg) (s.createWaitingRoom site msg).1
  | delete {p : Nat} {r : Room} (live : s.roomHeap[p]? = some r) :
      Primitive site s (.delete p r) (({ s with
        waitingRooms := s.waitingRooms.filter (· ≠ p)
        rooms := s.rooms.filter (· ≠ p) } : Roomserver).deleteRoom site p r)

inductive Chain (site : Site) (may : Action → Prop) : Roomserver → Roomserver → Prop where
  | refl (s) : Chain site may s s
  | tail : Chain site may s t → Primitive site t action u → may action → Chain site may s u

/-- The reason for which an event creates a room or deletes one that waits. -/
def Causes (s : Roomserver) (e : Event) : Action → Prop
  | .frame | .operate _ _ => True
  | .create msg => ∃ ptr buf doc connection rq, e = .message ptr buf doc ∧
    Requests s ptr doc connection rq ∧
      s.joinOutcome ⟨ptr, connection.cidHashVal⟩ rq = .ok .creates ∧ msg = rq.roomConfig
  | .delete p r => r.state = .roomWaiting → e = .checkZombieRooms ∧ s.roomHeap[p]? = some r ∧
    s.Zombie p

/-- The calls of one room in the log. -/
def logOf (s : Roomserver) (p : Nat) : List RoomCall :=
  (s.log.filter (·.1 = p)).map Prod.snd

/-- The room has lived on its own to this state, and these are its calls. -/
def Lives (site : Site) (p : Nat) (s : Room × List RoomCall) : Prop :=
  ∃ creationTime msg ops, (Room.machine site.roomClass p creationTime (.ofMsg msg)).Run ops s

structure Sound (site : Site) (s : Roomserver) : Prop where
  lives : ∀ {p r}, s.roomHeap[p]? = some r → Lives site p (r, s.logOf p)
  /-- A deleted room has lived, and made the calls of its destructor last. -/
  deleted : ∀ {p}, s.roomHeap[p]? = none → p < s.roomIdCounter →
    ∃ r calls, Lives site p (r, calls) ∧ s.logOf p = calls ++ r.destroy site.hostId site.portId
  unborn : ∀ {p}, s.roomIdCounter ≤ p → s.roomHeap[p]? = none ∧ s.logOf p = []
  waitingNodup : s.waitingRooms.Nodup
  roomsNodup : s.rooms.Nodup
  waiting_iff : ∀ {p}, p ∈ s.waitingRooms ↔ ∃ r, s.roomHeap[p]? = some r ∧ r.state = .roomWaiting
  rooms_iff : ∀ {p}, p ∈ s.rooms ↔
    ∃ r, s.roomHeap[p]? = some r ∧ States.roomStart.rank ≤ r.state.rank

theorem logOf_append (log : List (Nat × RoomCall)) (p q : Nat) (calls : List RoomCall) :
    ((log ++ calls.map fun call => (p, call)).filter (·.1 = q)).map Prod.snd =
      (log.filter (·.1 = q)).map Prod.snd ++ if p = q then calls else [] := by
  rw [List.filter_append, List.map_append]
  congr 1
  induction calls with
  | nil => simp
  | cons call rest ih =>
    by_cases same : p = q
    · simpa [same] using ih
    · simp [same]

section
variable {site : Site} {s t : Roomserver} {p : Nat} {r : Room} {life : Room × List RoomCall}

theorem Lives.inv (lives : Lives site p life) : life.1.Inv := by
  obtain ⟨_, _, _, run⟩ := lives
  exact Room.run_inv run

/-- The bounds come from a request; the stakes are always the defaults. -/
theorem Lives.config (lives : Lives site p life) : ∃ msg, life.1.roomConfig = .ofMsg msg := by
  obtain ⟨creationTime, msg, ops, run⟩ := lives
  refine ⟨msg, Transition.Machine.Run.induction (P := fun _ life =>
    life.1.roomConfig = .ofMsg msg) rfl ?_ run⟩
  intro ops life op next before same step
  obtain ⟨_, change, _⟩ := Room.step_change (Room.run_inv before) step
  rw [change.sameConfig, same]

theorem Lives.roomId (lives : Lives site p life) : life.1.roomId = p := by
  obtain ⟨creationTime, msg, ops, run⟩ := lives
  refine Transition.Machine.Run.induction (P := fun _ life => life.1.roomId = (p : Int)) rfl ?_ run
  intro ops life op next before same step
  obtain ⟨_, change, _⟩ := Room.step_change (Room.run_inv before) step
  rw [change.sameRoomId, same]

theorem Lives.roomClass (lives : Lives site p life) : life.1.roomClass = site.roomClass := by
  obtain ⟨creationTime, msg, ops, run⟩ := lives
  refine Transition.Machine.Run.induction (P := fun _ life =>
    life.1.roomClass = site.roomClass) rfl ?_ run
  intro ops life op next before same step
  obtain ⟨_, change, _⟩ := Room.step_change (Room.run_inv before) step
  rw [change.sameRoomClass, same]

theorem Lives.apply (lives : Lives site p (r, calls)) (allowed : r.allows op = true) :
    Lives site p ((r.apply op).1, calls ++ (r.apply op).2) := by
  obtain ⟨creationTime, msg, ops, run⟩ := lives
  exact ⟨creationTime, msg, ops ++ [op], run.step ⟨allowed, rfl⟩⟩

theorem Sound.inv (sound : Sound site s) (live : s.roomHeap[p]? = some r) : r.Inv :=
  (sound.lives live).inv

theorem Sound.born (sound : Sound site s) (live : s.roomHeap[p]? = some r) :
    p < s.roomIdCounter := by
  by_contra late
  rw [(sound.unborn (Nat.not_lt.mp late)).1] at live
  contradiction

theorem Sound.waiting_live (sound : Sound site s) (live : s.roomHeap[p]? = some r) :
    p ∈ s.waitingRooms ↔ r.state = .roomWaiting := by
  rw [sound.waiting_iff, live]
  simp

theorem Sound.rooms_live (sound : Sound site s) (live : s.roomHeap[p]? = some r) :
    p ∈ s.rooms ↔ States.roomStart.rank ≤ r.state.rank := by
  rw [sound.rooms_iff, live]
  simp

theorem Sound.not_both (sound : Sound site s) (waiting : p ∈ s.waitingRooms) : p ∉ s.rooms := by
  intro started
  obtain ⟨r, live, state⟩ := sound.waiting_iff.mp waiting
  obtain ⟨r', live', rank⟩ := sound.rooms_iff.mp started
  obtain rfl : r = r' := Option.some.inj (live.symm.trans live')
  exact Room.started_ne_waiting rank state

theorem Sound.listed (sound : Sound site s) (live : s.roomHeap[p]? = some r) :
    r.state = .roomWaiting ∧ p ∈ s.waitingRooms ∨
      States.roomStart.rank ≤ r.state.rank ∧ p ∈ s.rooms := by
  have ready := (sound.inv live).initialised
  cases state : r.state with
  | roomUninitialised => exact absurd state ready
  | roomWaiting => exact .inl ⟨rfl, sound.waiting_iff.mpr ⟨r, live, state⟩⟩
  | roomStart => exact .inr ⟨Nat.le_refl _, sound.rooms_iff.mpr ⟨r, live, by simp [state]⟩⟩
  | roomEnd => exact .inr ⟨by decide, sound.rooms_iff.mpr ⟨r, live, by rw [state]; decide⟩⟩

/-! ### Primitive steps keep the lists sound -/

theorem Sound.frame (sound : Sound site s) (heap : t.roomHeap = s.roomHeap)
    (waiting : t.waitingRooms = s.waitingRooms) (started : t.rooms = s.rooms)
    (counter : t.roomIdCounter = s.roomIdCounter) (log : t.log = s.log) : Sound site t := by
  have logs : ∀ p, t.logOf p = s.logOf p := fun p => by unfold logOf; rw [log]
  constructor
  case lives =>
    intro p r live
    rw [heap] at live
    rw [logs]
    exact sound.lives live
  case deleted =>
    intro p gone early
    rw [heap] at gone
    rw [counter] at early
    rw [logs]
    exact sound.deleted gone early
  case unborn =>
    intro p late
    rw [counter] at late
    rw [heap, logs]
    exact sound.unborn late
  case waitingNodup => exact waiting ▸ sound.waitingNodup
  case roomsNodup => exact started ▸ sound.roomsNodup
  case waiting_iff =>
    intro p
    rw [waiting, heap]
    exact sound.waiting_iff
  case rooms_iff =>
    intro p
    rw [started, heap]
    exact sound.rooms_iff

/-- One room has moved on to `r'`; the lists agree with its new state. -/
theorem Sound.moved (sound : Sound site s) (live : s.roomHeap[p]? = some r)
    (allowed : r.allows op = true) (heap : t.roomHeap = s.roomHeap.insert p (r.apply op).1)
    (log : t.log = s.log ++ (r.apply op).2.map fun call => (p, call))
    (counter : t.roomIdCounter = s.roomIdCounter) (waitingNodup : t.waitingRooms.Nodup)
    (roomsNodup : t.rooms.Nodup) (waiting : ∀ other, other ∈ t.waitingRooms ↔
      if p = other then (r.apply op).1.state = .roomWaiting else other ∈ s.waitingRooms)
    (started : ∀ other, other ∈ t.rooms ↔
      if p = other then States.roomStart.rank ≤ (r.apply op).1.state.rank else other ∈ s.rooms) :
    Sound site t := by
  have born := sound.born live
  have lookup : ∀ other, t.roomHeap[other]? = if p = other then some (r.apply op).1
    else s.roomHeap[other]? :=
    fun other => by rw [heap, OrderedMap.lookup_insert]
  have logs : ∀ other, t.logOf other = s.logOf other ++ if p = other then (r.apply op).2 else [] :=
    fun other => by unfold logOf; rw [log, logOf_append]
  constructor
  case lives =>
    intro other r' live'
    rw [lookup] at live'
    rw [logs]
    by_cases same : p = other
    · subst same
      rw [if_pos rfl] at live' ⊢
      cases Option.some.inj live'
      exact (sound.lives live).apply allowed
    · rw [if_neg same] at live' ⊢
      rw [List.append_nil]
      exact sound.lives live'
  case deleted =>
    intro other gone early
    rw [lookup] at gone
    rw [counter] at early
    rw [logs]
    by_cases same : p = other
    · simp [same] at gone
    · rw [if_neg same] at gone ⊢
      rw [List.append_nil]
      exact sound.deleted gone early
  case unborn =>
    intro other late
    rw [counter] at late
    have different : p ≠ other := by omega
    rw [lookup, logs, if_neg different, if_neg different, List.append_nil]
    exact sound.unborn late
  case waitingNodup => exact waitingNodup
  case roomsNodup => exact roomsNodup
  case waiting_iff =>
    intro other
    rw [waiting, lookup]
    by_cases same : p = other
    · simp [same]
    · simpa [same] using sound.waiting_iff
  case rooms_iff =>
    intro other
    rw [started, lookup]
    by_cases same : p = other
    · simp [same]
    · simpa [same] using sound.rooms_iff

theorem Sound.operate (sound : Sound site s) (live : s.roomHeap[p]? = some r)
    (allowed : r.allows op = true) :
    Sound site (s.updateRoom site p (r.apply op).1 (r.apply op).2) := by
  have change := Room.change_of_inv (sound.inv live) allowed
  by_cases starts : r.state = .roomWaiting ∧ (r.apply op).1.state = .roomStart
  · have waiting := sound.waiting_iff.mpr ⟨r, live, starts.1⟩
    have unstarted := sound.not_both waiting
    rw [updateRoom_starts change starts.1 starts.2 waiting unstarted]
    refine sound.moved live allowed rfl rfl rfl (sound.waitingNodup.filter _) ?_ ?_ ?_
    · exact List.nodup_append.mpr ⟨sound.roomsNodup, by simp, fun a member b single same => by
        rw [List.mem_singleton.mp single] at same
        exact unstarted (same ▸ member)⟩
    · intro other
      by_cases same : p = other
      · simp [same.symm, starts.2]
      · simp [same, Ne.symm same]
    · intro other
      by_cases same : p = other
      · simp [same.symm, starts.2]
      · simp [same, Ne.symm same]
  · rw [updateRoom_stays change starts]
    refine sound.moved live allowed rfl rfl rfl sound.waitingNodup sound.roomsNodup ?_ ?_
    · intro other
      by_cases same : p = other
      · subst same
        rw [if_pos rfl]
        refine (sound.waiting_live live).trans ?_
        obtain keeps | moves | ends := change.forward
        · rw [keeps]
        · exact absurd moves starts
        · simp [ends.1, ends.2]
      · rw [if_neg same]
    · intro other
      by_cases same : p = other
      · subst same
        rw [if_pos rfl]
        refine (sound.rooms_live live).trans ?_
        obtain keeps | moves | ends := change.forward
        · rw [keeps]
        · exact absurd moves starts
        · simp [ends.1, ends.2, States.rank]
      · rw [if_neg same]

theorem createWaitingRoom_eq (s : Roomserver) (msg : MsgRoomConfig) :
    s.createWaitingRoom site msg =
      let r := (Room.create site.roomClass s.roomIdCounter s.evNow (.ofMsg msg)).1
      ({ s with
        roomIdCounter := s.roomIdCounter + 1
        roomHeap := s.roomHeap.insert s.roomIdCounter r
        waitingRooms := s.waitingRooms ++ [s.roomIdCounter]
        hiredis := ((s.hiredis.incrBy (wroomKey site r) 1).1).expireKey (wroomKey site r) oneMinute
        log := s.log ++ [(s.roomIdCounter, .observer .roomEventCreate)] }, s.roomIdCounter, r) := by
  rfl

theorem Sound.create (sound : Sound site s) (msg : MsgRoomConfig) :
    Sound site (s.createWaitingRoom site msg).1 := by
  obtain ⟨unborn, silent⟩ := sound.unborn (Nat.le_refl s.roomIdCounter)
  have unlisted : s.roomIdCounter ∉ s.waitingRooms ∧ s.roomIdCounter ∉ s.rooms := by
    rw [sound.waiting_iff, sound.rooms_iff, unborn]
    simp
  have born := Room.create_eq site.roomClass s.roomIdCounter s.evNow (.ofMsg msg)
  rw [createWaitingRoom_eq]
  have logs : ∀ p,
      ((s.log ++ [(s.roomIdCounter, RoomCall.observer .roomEventCreate)]).filter (·.1 = p)).map
        Prod.snd =
      s.logOf p ++ if s.roomIdCounter = p then [.observer .roomEventCreate] else [] :=
    fun p => logOf_append s.log s.roomIdCounter p [.observer .roomEventCreate]
  constructor
  case lives =>
    intro p r live
    rw [OrderedMap.lookup_insert] at live
    simp only [logOf]
    rw [logs]
    by_cases same : s.roomIdCounter = p
    · subst same
      rw [if_pos rfl] at live ⊢
      cases Option.some.inj live
      rw [silent, List.nil_append]
      exact ⟨s.evNow, msg, [], .refl _⟩
    · rw [if_neg same] at live ⊢
      rw [List.append_nil]
      exact sound.lives live
  case deleted =>
    intro p gone early
    rw [OrderedMap.lookup_insert] at gone
    simp only [logOf]
    rw [logs]
    by_cases same : s.roomIdCounter = p
    · simp [same] at gone
    · rw [if_neg same] at gone ⊢
      rw [List.append_nil]
      exact sound.deleted gone (by change p < s.roomIdCounter + 1 at early; omega)
  case unborn =>
    intro p late
    change s.roomIdCounter + 1 ≤ p at late
    have different : s.roomIdCounter ≠ p := by omega
    simp only [logOf]
    rw [OrderedMap.lookup_insert, logs, if_neg different, if_neg different, List.append_nil]
    exact sound.unborn (by omega)
  case waitingNodup =>
    refine List.nodup_append.mpr ⟨sound.waitingNodup, by simp, fun a member b single same => ?_⟩
    rw [List.mem_singleton.mp single] at same
    exact unlisted.1 (same ▸ member)
  case roomsNodup => exact sound.roomsNodup
  case waiting_iff =>
    intro p
    rw [OrderedMap.lookup_insert, List.mem_append, List.mem_singleton]
    by_cases same : s.roomIdCounter = p
    · subst same
      simp [born]
    · rw [if_neg same, sound.waiting_iff]
      simp [Ne.symm same]
  case rooms_iff =>
    intro p
    rw [OrderedMap.lookup_insert]
    by_cases same : s.roomIdCounter = p
    · subst same
      simpa [born, States.rank] using unlisted.2
    · rw [if_neg same]
      exact sound.rooms_iff

theorem Sound.delete (sound : Sound site s) (live : s.roomHeap[p]? = some r) :
    Sound site (({ s with
      waitingRooms := s.waitingRooms.filter (· ≠ p)
      rooms := s.rooms.filter (· ≠ p) } : Roomserver).deleteRoom site p r) := by
  have born := sound.born live
  rw [deleteRoom_eq]
  have logs : ∀ other, ((s.log ++ (r.destroy site.hostId site.portId).map fun call => (p, call)).filter
      (·.1 = other)).map Prod.snd = s.logOf other ++
        if p = other then r.destroy site.hostId site.portId else [] :=
    fun other => logOf_append s.log p other _
  constructor
  case lives =>
    intro other r' live'
    rw [OrderedMap.lookup_erase] at live'
    simp only [logOf]
    rw [logs]
    by_cases same : p = other
    · simp [same] at live'
    · rw [if_neg same] at live' ⊢
      rw [List.append_nil]
      exact sound.lives live'
  case deleted =>
    intro other gone early
    rw [OrderedMap.lookup_erase] at gone
    simp only [logOf]
    rw [logs]
    by_cases same : p = other
    · subst same
      rw [if_pos rfl]
      exact ⟨r, s.logOf p, sound.lives live, rfl⟩
    · rw [if_neg same] at gone ⊢
      rw [List.append_nil]
      exact sound.deleted gone early
  case unborn =>
    intro other late
    change s.roomIdCounter ≤ other at late
    have different : p ≠ other := by omega
    simp only [logOf]
    rw [OrderedMap.lookup_erase, logs, if_neg different, if_neg different, List.append_nil]
    exact sound.unborn late
  case waitingNodup => exact sound.waitingNodup.filter _
  case roomsNodup => exact sound.roomsNodup.filter _
  case waiting_iff =>
    intro other
    rw [OrderedMap.lookup_erase, List.mem_filter]
    by_cases same : p = other
    · simp [same]
    · simpa [same, Ne.symm same] using sound.waiting_iff
  case rooms_iff =>
    intro other
    rw [OrderedMap.lookup_erase, List.mem_filter]
    by_cases same : p = other
    · simp [same]
    · simpa [same, Ne.symm same] using sound.rooms_iff

theorem Primitive.sound (sound : Sound site s) (step : Primitive site s action t) :
    Sound site t := by
  cases step with
  | frame heap waiting started counter _ log => exact sound.frame heap waiting started counter log
  | operate live allowed => exact sound.operate live allowed
  | create msg => exact sound.create msg
  | delete live => exact sound.delete live

/-! ### Every effect is a chain of primitive steps -/

variable {may : Action → Prop}

namespace Chain

theorem trans (first : Chain site may s t) (second : Chain site may t u) : Chain site may s u := by
  induction second with
  | refl => exact first
  | tail _ step allowed ih => exact .tail ih step allowed

theorem sound (chain : Chain site may s t) (sound : Sound site s) : Sound site t := by
  induction chain with
  | refl => exact sound
  | tail _ step _ ih => exact step.sound ih

theorem invariant {P : Roomserver → Prop} (chain : Chain site may s t) (ready : Sound site s)
    (initial : P s)
    (preserves : ∀ {s action t}, Sound site s → P s → Primitive site s action t → may action →
    P t) : P t := by
  induction chain with
  | refl => exact initial
  | tail before step allowed ih => exact preserves (before.sound ready) ih step allowed

end Chain

theorem swept_rooms (sound : Sound site s) (p : Nat) :
    (if s.waitingRooms.length = (s.waitingRooms.filter (· ≠ p)).length then s.rooms.filter (· ≠ p)
      else s.rooms) = s.rooms.filter (· ≠ p) := by
  split
  · rfl
  · rename_i shrinks
    have waiting : p ∈ s.waitingRooms := by
      by_contra absent
      exact shrinks (by rw [filter_absent absent])
    exact (filter_absent (sound.not_both waiting)).symm

theorem swept_chain (sound : Sound site s) (live : s.roomHeap[p]? = some r)
    (allowed : may (.delete p r)) (framed : may .frame) : Chain site may s (s.swept site p r) := by
  refine .tail (.tail (.refl s) (.frame (t := s.forgotten r) rfl rfl rfl rfl rfl rfl) framed) ?_ allowed
  simp only [swept]
  rw [swept_rooms sound]
  exact .delete live

theorem Sweeps.chain (sweeps : Sweeps site s zombies t) (sound : Sound site s)
    (allowed : ∀ p ∈ zombies, ∀ r, s.roomHeap[p]? = some r → may (.delete p r))
    (framed : may .frame) :
    Chain site may s t := by
  induction sweeps with
  | done s => exact .refl s
  | @next s t room zombie zombies found rest ih =>
    have first : Chain site may s (s.swept site room zombie) :=
      swept_chain sound found (allowed room (List.mem_cons_self ..) zombie found) framed
    refine first.trans (ih (first.sound sound) fun p member r live => ?_)
    apply allowed p (List.mem_cons_of_mem _ member) r
    rw [swept, deleteRoom_eq, OrderedMap.lookup_erase] at live
    split at live
    · contradiction
    · exact live

theorem Joined.chain (joined : Joined site s q msg t) (framed : may .frame)
    (operated : ∀ p op, may (.operate p op))
    (created : s.joinOutcome q msg = .ok .creates → may (.create msg.roomConfig)) :
    Chain site may s t := by
  cases joined with
  | alreadySeated => exact .refl s
  | @joins room prev r base outcome found accepted same =>
    exact .tail (.tail (.refl s) (.operate found rfl) (operated _ _))
      (.frame rfl rfl rfl rfl rfl rfl) framed
  | @creates base outcome same =>
    have first : Chain site may s { s with connectionMap := base } :=
      .tail (.refl s) (.frame rfl rfl rfl rfl rfl rfl) framed
    have second := first.tail (.create msg.roomConfig) (created outcome)
    have live : (({ s with
      connectionMap := base } : Roomserver).createWaitingRoom site msg.roomConfig).1.roomHeap[
        s.roomIdCounter]? = some (({ s with connectionMap := base } : Roomserver).createWaitingRoom site
          msg.roomConfig).2.2 := by
      rw [createWaitingRoom_eq, OrderedMap.lookup_insert, if_pos rfl]
    have third := second.tail (.operate live rfl) (operated _ (.tryAdd q msg.pid 0))
    exact third.tail (.frame rfl rfl rfl rfl rfl rfl) framed

theorem frame_conns (s : Roomserver) (conns : TreeMap Nat Connection) :
    Primitive site s .frame { s with conns } :=
  .frame rfl rfl rfl rfl rfl rfl

/-- The player of a connection is removed from its room. -/
theorem vacates_chain (ptr cidHashVal : Nat) (live : s.roomHeap[room]? = some r) :
    Chain site (Causes s (.destroyConnection ptr)) s (s.vacates site ⟨ptr, cidHashVal⟩ room r) := by
  have first : Chain site (Causes s (.destroyConnection ptr)) s
      { s with connectionMap := s.connectionMap.erase cidHashVal } :=
    .tail (.refl s) (.frame rfl rfl rfl rfl rfl rfl) trivial
  exact first.tail (.operate live (rfl : r.allows (.remove ⟨ptr, cidHashVal⟩) = true)) trivial

theorem Effect.chain (sound : Sound site s) (effect : Effect site s e t)
    (quiet : ∀ key, e ≠ .keyExpires key ∧ e ≠ .keyExpired key) : Chain site (Causes s e) s t := by
  cases effect with
  | connect | connected | hi | shutdown | unseated | clock =>
    exact .tail (.refl s) (.frame rfl rfl rfl rfl rfl rfl) trivial
  | ignored => exact .refl s
  | @request _ _ _ _ ptr connection requests joined =>
    refine (Chain.tail (.refl s)
      (.frame (t := s.matched ptr connection) rfl rfl rfl rfl rfl rfl) trivial).trans
      (joined.chain trivial (fun _ _ => trivial) fun outcome => ?_)
    rw [joinOutcome_matched] at outcome
    exact ⟨_, _, _, _, _, rfl, requests, outcome, rfl⟩
  | chat found mapped live present => exact .tail (.refl s) (.operate live rfl) trivial
  | tick live active => exact .tail (.refl s) (.operate live active) trivial
  | leaves found mapped live stays => exact (vacates_chain _ _ live).tail (frame_conns _ _) trivial
  | @leavesLast left ptr room connection r found mapped live ended empty same listed =>
    have second : Chain site (Causes s (.destroyConnection ptr)) s (s.vacates site ⟨ptr,
      connection.cidHashVal⟩ room r) :=
      vacates_chain ptr connection.cidHashVal live
    have gone : left.roomHeap[room]? = some (r.apply (.remove ⟨ptr, connection.cidHashVal⟩)).1 := by
      have change := Room.change_of_inv (sound.inv live)
        (rfl : r.allows (.remove ⟨ptr, connection.cidHashVal⟩) = true)
      rw [same, vacates, (updateRoom_frame _ _ _ change).1, OrderedMap.lookup_insert, if_pos rfl]
    have notWaiting : Causes s (.destroyConnection ptr)
        (.delete room (r.apply (.remove ⟨ptr, connection.cidHashVal⟩)).1) := by
      intro waiting
      rw [ended] at waiting
      contradiction
    have third := (same ▸ second : Chain site _ s left).tail (.delete gone) notWaiting
    exact third.tail (frame_conns _ _) trivial
  | sweeps sweeps listed =>
    refine sweeps.chain sound (fun p member r live _ => ⟨rfl, live, listed p member⟩) trivial
  | keyExpires => exact absurd rfl (quiet _).1
  | keyExpired => exact absurd rfl (quiet _).2

/-- Of a step that is no chain the rooms see nothing: a key of the data base expires. -/
theorem Effect.chain_or_expires (sound : Sound site s) (effect : Effect site s e t) :
    Chain site (Causes s e) s t ∨ ∃ hiredis, t = { s with hiredis := hiredis } := by
  by_cases quiet : ∀ key, e ≠ .keyExpires key ∧ e ≠ .keyExpired key
  · exact .inl (effect.chain sound quiet)
  · right
    cases effect with
    | keyExpires | keyExpired => exact ⟨_, rfl⟩
    | _ => exact absurd (fun key => ⟨by simp, by simp⟩) quiet

theorem Effect.sound (sound : Sound site s) (effect : Effect site s e t) : Sound site t := by
  rcases effect.chain_or_expires sound with chain | ⟨_, rfl⟩
  · exact chain.sound sound
  · exact sound.frame rfl rfl rfl rfl rfl

theorem sound_init (site : Site) : Sound site {} := by
  constructor <;> simp [logOf]

/-- Every reachable server is sound. -/
theorem sound_of_run (run : (machine site).Run es s) : Sound site s :=
  Transition.Machine.Reaches.invariant (fun sound step =>
    (step_effect step).sound sound) run (sound_init site)

end
end Gearsdk.Roomserver
