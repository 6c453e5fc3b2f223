import Gearsdk.Roomserver.Lifecycle

/-! What one event does to one room, and from it the life cycle of the rooms in
the two lists of the server. -/
namespace Gearsdk.Roomserver
open Std Transition

variable {site : Site} {s t : Roomserver} {p : Nat} {r r' : Room}

/-- Why an event performs an operation on a room. -/
def Reason (s : Roomserver) (e : Event) (p : Nat) (r' : Room) : Room.Op → Prop
  | .tryAdd q pid prev => ∃ buf doc connection rq, e = .message q.ptr buf doc ∧
      Requests s q.ptr doc connection rq ∧ q.cidHashVal = connection.cidHashVal ∧ pid = rq.pid ∧
      s.joinOutcome q rq = .ok (.joins p prev)
  | .remove q => ∃ connection, e = .destroyConnection q.ptr ∧ s.conns[q.ptr]? = some connection ∧
      q.cidHashVal = connection.cidHashVal ∧ s.connectionMap[q.cidHashVal]? = some p ∧
      ¬ (r'.state = .roomEnd ∧ r'.getPlaymapCount = 0)
  | .tick timer => e = .countDownTimer p timer
  | .message _ _ => True

/-- What an event does to a room that is live before and after it. -/
inductive Moves (s : Roomserver) (e : Event) (p : Nat) (r : Room) : Room → Prop where
  | stays : Moves s e p r r
  | operates {op : Room.Op} (allowed : r.allows op = true)
      (reason : Reason s e p (r.apply op).1 op) :
      Moves s e p r (r.apply op).1

theorem Moves.forward (moves : Moves s e p r r') (inv : r.Inv) : r.state.rank ≤ r'.state.rank := by
  cases moves with
  | stays => exact Nat.le_refl _
  | operates allowed => exact (Room.change_of_inv inv allowed).rank_le

/-- An operation on `q` leads to `Moves` for every room. -/
theorem operated_moves (op : Room.Op) (found : s.roomHeap[q]? = some r₁)
    (allowed : r₁.allows op = true) (reason : Reason s e q (r₁.apply op).1 op)
    (live : s.roomHeap[p]? = some r) (still : (s.roomHeap.insert q (r₁.apply op).1)[p]? = some r') :
    Moves s e p r r' := by
  rw [OrderedMap.lookup_insert] at still
  by_cases same : q = p
  · subst same
    cases Option.some.inj (found.symm.trans live)
    rw [if_pos rfl] at still
    cases Option.some.inj still
    exact .operates allowed reason
  · rw [if_neg same, live] at still
    cases Option.some.inj still
    exact .stays

theorem unmoved (live : s.roomHeap[p]? = some r) (still : s.roomHeap[p]? = some r') :
    Moves s e p r r' := by
  cases Option.some.inj (live.symm.trans still)
  exact .stays

theorem Sweeps.heap (sweeps : Sweeps site s zombies t) :
    ∀ p, t.roomHeap[p]? = if p ∈ zombies then none else s.roomHeap[p]? := by
  induction sweeps with
  | done s => simp
  | @next s t room zombie zombies found rest ih =>
    intro p
    have first : (s.swept site room zombie).roomHeap[p]? = if room = p then none
        else s.roomHeap[p]? := by
      rw [swept, deleteRoom_eq, OrderedMap.lookup_erase]
      rfl
    rw [ih, first]
    by_cases same : room = p
    · simp [same]
    · simp [same, Ne.symm same]

theorem heap_updateRoom (sound : Sound site s) (live : s.roomHeap[p]? = some r)
    (allowed : r.allows op = true) :
    (s.updateRoom site p (r.apply op).1 (r.apply op).2).roomHeap =
      s.roomHeap.insert p (r.apply op).1 :=
  (updateRoom_frame _ _ _ (Room.change_of_inv (sound.inv live) allowed)).1

theorem heap_vacates (sound : Sound site s) (live : s.roomHeap[p]? = some r) (q : QconnIo) :
    (s.vacates site q p r).roomHeap = s.roomHeap.insert p (r.apply (.remove q)).1 :=
  (updateRoom_frame _ _ _ (Room.change_of_inv (sound.inv live) (rfl : r.allows (.remove q) = true))).1

theorem vacates_frame (sound : Sound site s) (live : s.roomHeap[p]? = some r) (q : QconnIo) :
    (s.vacates site q p r).conns = s.conns ∧
    (s.vacates site q p r).connectionMap = s.connectionMap.erase q.cidHashVal ∧
    (s.vacates site q p r).newConnections = s.newConnections ∧
    (s.vacates site q p r).roomIdCounter = s.roomIdCounter := by
  have change := Room.change_of_inv (sound.inv live) (rfl : r.allows (.remove q) = true)
  obtain ⟨_, _, conns, map, listed, counter⟩ :=
    updateRoom_frame site { s with connectionMap := s.connectionMap.erase q.cidHashVal } p change
  exact ⟨conns, map, listed, counter⟩

/-- The room that a request creates, with its first player if it takes him. -/
def newborn (site : Site) (s : Roomserver) (q : QconnIo) (msg : MsgRoomMatchRequest) : Room :=
  ((Room.create site.roomClass s.roomIdCounter s.evNow (.ofMsg msg.roomConfig)).1.apply
    (.tryAdd q msg.pid 0)).1

theorem joinNewRoom_eq (s : Roomserver) (q : QconnIo) (msg : MsgRoomMatchRequest) :
    s.joinNewRoom site q msg =
      let r := (Room.create site.roomClass s.roomIdCounter s.evNow (.ofMsg msg.roomConfig)).1
      { (s.createWaitingRoom site msg.roomConfig).1.updateRoom site s.roomIdCounter
          (r.apply (.tryAdd q msg.pid 0)).1 (r.apply (.tryAdd q msg.pid 0)).2 with
        connectionMap := s.connectionMap.insert q.cidHashVal s.roomIdCounter } := by
  simp only [joinNewRoom]
  rw [createWaitingRoom_eq]
  simp only [connectionMap_updateRoom]
  rfl

theorem heap_joinNewRoom (site : Site) (s : Roomserver) (q : QconnIo) (msg : MsgRoomMatchRequest)
    (p : Nat) :
    (s.joinNewRoom site q msg).roomHeap[p]? =
      if s.roomIdCounter = p then some (newborn site s q msg) else s.roomHeap[p]? := by
  have inv := Room.create_inv site.roomClass s.roomIdCounter s.evNow (.ofMsg msg.roomConfig)
  have change := Room.change_tryAdd inv.initialised q msg.pid 0
  rw [joinNewRoom_eq]
  change (((s.createWaitingRoom site msg.roomConfig).1.updateRoom site s.roomIdCounter
    _ _).roomHeap)[p]? = _
  rw [(updateRoom_frame _ _ _ change).1, createWaitingRoom_eq, OrderedMap.lookup_insert,
    OrderedMap.lookup_insert]
  split <;> rfl

theorem sound_matched (sound : Sound site s) (ptr : Nat) (connection : Connection) :
    Sound site (s.matched ptr connection) :=
  sound.frame rfl rfl rfl rfl rfl

/-- A room that is live before and after an event has done at most one operation. -/
theorem Effect.moves (sound : Sound site s) (effect : Effect site s e t)
    (live : s.roomHeap[p]? = some r) (still : t.roomHeap[p]? = some r') : Moves s e p r r' := by
  cases effect with
  | connect | connected | hi | ignored | shutdown | unseated | clock | keyExpires | keyExpired =>
    exact unmoved live still
  | @request _ _ _ _ ptr connection requests joined =>
    cases joined with
    | alreadySeated => exact unmoved live still
    | @joins room prev r₁ base outcome found accepted same =>
      rw [joinOutcome_matched] at outcome
      rw [heap_updateRoom (sound_matched sound ptr connection) found rfl] at still
      exact operated_moves (.tryAdd ⟨ptr, _⟩ _ prev) found rfl
        ⟨_, _, connection, _, rfl, requests, rfl, rfl, outcome⟩ live still
    | @creates base outcome same =>
      have old := sound.born live
      rw [heap_joinNewRoom, if_neg (by change s.roomIdCounter ≠ p; omega)] at still
      exact unmoved live still
  | chat found mapped roomLive present =>
    rw [heap_updateRoom sound roomLive rfl] at still
    exact operated_moves (.message _ _) roomLive rfl trivial live still
  | @leaves ptr room connection r₁ found mapped roomLive stays =>
    have still : (s.vacates site ⟨ptr, connection.cidHashVal⟩ room r₁).roomHeap[p]? = some r' :=
      still
    rw [heap_vacates sound roomLive] at still
    exact operated_moves (.remove ⟨ptr, _⟩) roomLive rfl ⟨connection, rfl, found, rfl, mapped,
      stays⟩ live still
  | @leavesLast left ptr room connection r₁ found mapped roomLive ended empty same listed =>
    rw [deleteRoom_eq] at still
    change (left.roomHeap.erase room)[p]? = some r' at still
    rw [OrderedMap.lookup_erase, same, heap_vacates sound roomLive,
      OrderedMap.lookup_insert] at still
    split at still
    · contradiction
    · exact unmoved live still
  | tick roomLive active =>
    rw [heap_updateRoom sound roomLive active] at still
    exact operated_moves (.tick _) roomLive active rfl live still
  | sweeps sweeps listed =>
    rw [sweeps.heap] at still
    split at still
    · contradiction
    · exact unmoved live still

/-- A room that is live after an event and was not before is the one that the
event creates. -/
theorem Effect.born (sound : Sound site s) (effect : Effect site s e t)
    (absent : s.roomHeap[p]? = none) (live : t.roomHeap[p]? = some r') :
    ∃ ptr buf doc connection rq, e = .message ptr buf doc ∧ Requests s ptr doc connection rq ∧
      s.joinOutcome ⟨ptr, connection.cidHashVal⟩ rq = .ok .creates ∧ p = s.roomIdCounter ∧
      r' = newborn site s ⟨ptr, connection.cidHashVal⟩ rq := by
  have unchanged : s.roomHeap[p]? ≠ some r' := by simp [absent]
  have operated : ∀ {q : Nat} {r₁ r₂ : Room}, s.roomHeap[q]? = some r₁ →
      (s.roomHeap.insert q r₂)[p]? ≠ some r' := by
    intro q r₁ r₂ found now
    rw [OrderedMap.lookup_insert] at now
    split at now
    · rename_i same
      rw [same, absent] at found
      contradiction
    · exact unchanged now
  cases effect with
  | connect | connected | hi | ignored | shutdown | unseated | clock | keyExpires | keyExpired =>
    exact absurd live unchanged
  | @request _ _ _ _ ptr connection requests joined =>
    cases joined with
    | alreadySeated => exact absurd live unchanged
    | @joins room prev r₁ base outcome found accepted same =>
      rw [heap_updateRoom (sound_matched sound ptr connection) found rfl] at live
      exact absurd live (operated found)
    | @creates base outcome same =>
      rw [joinOutcome_matched] at outcome
      rw [heap_joinNewRoom] at live
      change (if s.roomIdCounter = p then _ else s.roomHeap[p]?) = some r' at live
      split at live
      · rename_i here
        cases Option.some.inj live
        exact ⟨ptr, _, _, connection, _, rfl, requests, outcome, here.symm, rfl⟩
      · exact absurd live unchanged
  | chat found mapped roomLive present =>
    rw [heap_updateRoom sound roomLive rfl] at live
    exact absurd live (operated roomLive)
  | @leaves ptr room connection r₁ found mapped roomLive stays =>
    have live : (s.vacates site ⟨ptr, connection.cidHashVal⟩ room r₁).roomHeap[p]? = some r' := live
    rw [heap_vacates sound roomLive] at live
    exact absurd live (operated roomLive)
  | @leavesLast left ptr room connection r₁ found mapped roomLive ended empty same listed =>
    rw [deleteRoom_eq] at live
    change (left.roomHeap.erase room)[p]? = some r' at live
    rw [OrderedMap.lookup_erase, same, heap_vacates sound roomLive] at live
    split at live
    · contradiction
    · exact absurd live (operated roomLive)
  | tick roomLive active =>
    rw [heap_updateRoom sound roomLive active] at live
    exact absurd live (operated roomLive)
  | sweeps sweeps listed =>
    rw [sweeps.heap] at live
    split at live
    · contradiction
    · exact absurd live unchanged

/-! ### The life cycle -/

theorem Primitive.counter_le (sound : Sound site s) (step : Primitive site s action t) :
    s.roomIdCounter ≤ t.roomIdCounter := by
  cases step with
  | frame _ _ _ counter => exact Nat.le_of_eq counter.symm
  | operate live allowed =>
    exact Nat.le_of_eq
      (updateRoom_frame _ _ _ (Room.change_of_inv (sound.inv live) allowed)).2.2.2.2.2.symm
  | create msg => exact Nat.le_succ _
  | delete live =>
    rw [deleteRoom_eq]

theorem Effect.counter_le (sound : Sound site s) (effect : Effect site s e t) :
    s.roomIdCounter ≤ t.roomIdCounter := by
  rcases effect.chain_or_expires sound with chain | ⟨_, rfl⟩
  · exact chain.invariant (P := fun u => s.roomIdCounter ≤ u.roomIdCounter) sound
      (Nat.le_refl _) fun sound before step _ => Nat.le_trans before (step.counter_le sound)
  · exact Nat.le_refl _

/-- From `s` to `t` no room is reborn, and no room goes back. -/
def Later (s t : Roomserver) : Prop :=
  s.roomIdCounter ≤ t.roomIdCounter ∧ ∀ p < s.roomIdCounter,
    (s.roomHeap[p]? = none → t.roomHeap[p]? = none) ∧
    ∀ r r', s.roomHeap[p]? = some r → t.roomHeap[p]? = some r' → r.state.rank ≤ r'.state.rank

theorem Later.refl (s : Roomserver) : Later s s :=
  ⟨Nat.le_refl _, fun _ _ => ⟨id, fun _ _ live still => by
    cases Option.some.inj (live.symm.trans still)
    exact Nat.le_refl _⟩⟩

theorem Later.trans (first : Later s t) (second : Later t u) : Later s u := by
  refine ⟨Nat.le_trans first.1 second.1, fun p early => ?_⟩
  obtain ⟨gone, forward⟩ := first.2 p early
  obtain ⟨gone', forward'⟩ := second.2 p (Nat.lt_of_lt_of_le early first.1)
  refine ⟨fun absent => gone' (gone absent), fun r r' live still => ?_⟩
  cases middle : t.roomHeap[p]? with
  | none =>
    rw [gone' middle] at still
    contradiction
  | some r₁ => exact Nat.le_trans (forward r r₁ live middle) (forward' r₁ r' middle still)

theorem Effect.later (sound : Sound site s) (effect : Effect site s e t) : Later s t := by
  refine ⟨effect.counter_le sound, fun p early => ⟨fun absent => ?_, fun r r' live still => ?_⟩⟩
  · cases now : t.roomHeap[p]? with
    | none => rfl
    | some r' =>
      obtain ⟨_, _, _, _, _, _, _, _, same, _⟩ := effect.born sound absent now
      omega
  · exact (effect.moves sound live still).forward (sound.inv live)

/-- A started room stays among the started rooms as long as it is live. -/
theorem Effect.stays_started (sound : Sound site s) (effect : Effect site s e t)
    (started : p ∈ s.rooms) (live : p ∈ t.roomHeap) : p ∈ t.rooms := by
  obtain ⟨r, before, rank⟩ := sound.rooms_iff.mp started
  obtain ⟨r', after⟩ := OrderedMap.mem_iff_lookup.mp live
  have forward := (effect.moves sound before after).forward (sound.inv before)
  exact (effect.sound sound).rooms_iff.mpr ⟨r', after, Nat.le_trans rank forward⟩

theorem later_of_path (run : (machine site).Run before s) (path : (machine site).Reaches s es t) :
    Later s t :=
  Machine.Reaches.relates Later.refl Later.trans
    (fun earlier step => (step_effect step).later (sound_of_run earlier)) run path

/-- Only the leave of a last player could leave an ended room empty, and that
deletes it. -/
theorem Moves.occupied (moves : Moves s e p r r') (inv : r.Inv)
    (before : r.state = .roomEnd → r.getPlaymapCount ≠ 0) :
    r'.state = .roomEnd → r'.getPlaymapCount ≠ 0 := by
  intro ended
  cases moves with
  | stays => exact before ended
  | @operates op allowed reason =>
    have change := Room.change_of_inv inv allowed
    cases op with
    | remove q =>
      obtain ⟨_, _, _, _, _, occupied⟩ := reason
      exact fun empty => occupied ⟨ended, empty⟩
    | tryAdd q pid prev =>
      generalize (r.apply (.tryAdd q pid prev)).1 = r', (r.apply (.tryAdd q pid prev)).2 =
        calls at change ended
      cases change with
      | rejected => exact before ended
      | seated accepted =>
        have grows := Room.getPlaymapCount_occupied pid prev (Room.absent_of_accepts accepted)
        have seats : 0 ≤ r.getPlaymapCount := Int.natCast_nonneg _
        omega
      | fills => contradiction
      | countsDown _ waiting =>
        rw [Room.countingDown_state, Room.occupied_state, waiting] at ended
        contradiction
    | tick timer =>
      generalize (r.apply (.tick timer)).1 = r', (r.apply (.tick timer)).2 = calls at change ended
      cases change with
      | ticks _ _ waiting =>
        change r.state = _ at ended
        rw [waiting] at ended
        contradiction
      | lastTick => contradiction
    | message cidHash msg =>
      generalize (r.apply (.message cidHash msg)).1 = r', (r.apply (.message cidHash msg)).2 =
        calls at change ended
      cases change with
      | relays | ignores => exact before ended

theorem newborn_not_ended (s : Roomserver) (q : QconnIo) (msg : MsgRoomMatchRequest) :
    (newborn site s q msg).state ≠ .roomEnd := by
  have inv := Room.create_inv site.roomClass s.roomIdCounter s.evNow (.ofMsg msg.roomConfig)
  intro ended
  obtain same | started | ⟨started, _⟩ := (Room.change_tryAdd inv.initialised q msg.pid 0).forward
  · rw [newborn, same, Room.create_eq] at ended
    contradiction
  · rw [newborn, started.2] at ended
    contradiction
  · rw [Room.create_eq] at started
    contradiction

theorem ended_occupied (run : (machine site).Run es s) :
    ∀ (p : Nat) (r : Room), s.roomHeap[p]? = some r → r.state = .roomEnd →
      r.getPlaymapCount ≠ 0 := by
  refine Machine.Run.induction
    (P := fun _ s => ∀ (p : Nat) (r : Room),
      s.roomHeap[p]? = some r → r.state = .roomEnd → r.getPlaymapCount ≠ 0) ?_ ?_ run
  · intro p r live
    simp [machine] at live
  · intro es s e t before occupied step p r' live
    have sound := sound_of_run before
    have effect := step_effect step
    cases old : s.roomHeap[p]? with
    | some r => exact (effect.moves sound old live).occupied (sound.inv old) (occupied p r old)
    | none =>
      obtain ⟨_, _, _, _, _, _, _, _, _, rfl⟩ := effect.born sound old live
      exact fun ended => absurd ended (newborn_not_ended _ _ _)

/-- The room is in one of the two lists, once, and its state says in which. -/
structure Listed (s : Roomserver) (p : Nat) (r : Room) : Prop where
  once : s.waitingRooms.count p + s.rooms.count p = 1
  waiting : p ∈ s.waitingRooms ↔ r.state = .roomWaiting
  started : p ∈ s.rooms ↔ r.state = .roomStart ∨ r.state = .roomEnd

theorem Sound.list (sound : Sound site s) (live : s.roomHeap[p]? = some r) : Listed s p r := by
  have ready := (sound.inv live).initialised
  have waiting := sound.waiting_live live
  have started := sound.rooms_live live
  refine ⟨?_, waiting, started.trans ?_⟩
  · rcases sound.listed live with ⟨_, member⟩ | ⟨_, member⟩
    · rw [List.count_eq_one_of_mem sound.waitingNodup member,
        List.count_eq_zero_of_not_mem (sound.not_both member)]
    · have absent : p ∉ s.waitingRooms := fun waits => sound.not_both waits member
      rw [List.count_eq_one_of_mem sound.roomsNodup member, List.count_eq_zero_of_not_mem absent]
  · cases state : r.state <;> simp_all [States.rank]

theorem Sound.unlisted (sound : Sound site s) (absent : p ∉ s.roomHeap) :
    p ∉ s.waitingRooms ∧ p ∉ s.rooms := by
  rw [sound.waiting_iff, sound.rooms_iff, OrderedMap.not_mem_iff_lookup.mp absent]
  simp

/-- The life cycle of the rooms of a server, in every reachable state and along
every path from it. -/
theorem room_life_cycle (run : (machine site).Run es s) :
    (∀ (p : Nat) (r : Room), s.roomHeap[p]? = some r → Listed s p r ∧
      (r.state = .roomEnd → ∃ cidHash, cidHash ∈ r.playermap)) ∧
    (∀ p : Nat, p ∉ s.roomHeap → p ∉ s.waitingRooms ∧ p ∉ s.rooms) ∧
    (∀ e t (p : Nat) (r r' : Room), (machine site).Step s e t →
      s.roomHeap[p]? = some r → t.roomHeap[p]? = some r' →
      r'.state = r.state ∨ (r.state = .roomWaiting ∧ r'.state = .roomStart) ∨
        (r.state = .roomStart ∧ r'.state = .roomEnd)) ∧
    (∀ fs t (p : Nat) (r : Room), (machine site).Reaches s fs t → s.roomHeap[p]? = some r →
      (∀ r', t.roomHeap[p]? = some r' → r.state.rank ≤ r'.state.rank) ∧
      (p ∉ t.roomHeap → p ∉ t.waitingRooms ∧ p ∉ t.rooms)) := by
  have sound := sound_of_run run
  refine ⟨fun p r live => ⟨sound.list live, fun ended => ?_⟩, fun p absent =>
    sound.unlisted absent, ?_, ?_⟩
  · by_contra empty
    have none_seated : r.playermap.size = 0 := OrderedMap.size_zero_iff.mpr fun cidHash member =>
      empty ⟨_, member⟩
    exact ended_occupied run p r live ended (by simp [Room.getPlaymapCount, none_seated])
  · intro e t p r r' step live still
    have moves := (step_effect step).moves sound live still
    cases moves with
    | stays => exact .inl rfl
    | operates allowed => exact (Room.change_of_inv (sound.inv live) allowed).forward
  · intro fs t p r path live
    refine ⟨fun r' still => ?_, fun absent => (sound_of_run (run.trans path)).unlisted absent⟩
    exact ((later_of_path run path).2 p (sound.born live)).2 r r' live still

/-- A client that connects and asks for a room with its first message. -/
def arrival (ptr cidHashVal : Nat) (rq : MsgRoomMatchRequest) : List Event :=
  [.connect ptr cidHashVal, .connected ptr, .message ptr [] (some rq.serialize)]

/-- A room for two that has started, and from which one player has dropped out. -/
theorem room_life_cycle_duel :
    ∃ s r, (machine ⟨.gameRoom, [], []⟩).Run
        (arrival 1 11 { roomConfig := { min := 1, max := 2 } } ++
          arrival 2 22 { roomConfig := { min := 1, max := 2 } } ++ [.destroyConnection 1]) s ∧
      s.roomHeap[0]? = some r ∧ r.state = .roomStart ∧ Listed s 0 r := by
  have shown : ((machine ⟨.gameRoom, [], []⟩).exec {}
        (arrival 1 11 { roomConfig := { min := 1, max := 2 } } ++
          arrival 2 22 { roomConfig := { min := 1, max := 2 } } ++ [.destroyConnection 1])).map
      (fun s => (s.roomHeap[0]?).map (·.state)) = some (some .roomStart) := by decide +kernel
  obtain ⟨s, run, same⟩ := Machine.exec_observe shown
  obtain ⟨r, live, state⟩ := Option.map_eq_some_iff.mp same
  exact ⟨s, r, run, live, state, ((room_life_cycle run).1 0 r live).1⟩

end Gearsdk.Roomserver
