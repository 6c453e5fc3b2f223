import Gearsdk.Roomserver.Registration

/-! The room with id 0. Its start sets the counter of started rooms to one instead
of incrementing it. That is harmless because no second room is created while
the first one waits and could still start. -/
namespace Gearsdk.Roomserver
open Std Transition

variable {site : Site} {s t : Roomserver} {p : Nat} {r r' : Room}

/-- The room waits, and its bounds allow a start. -/
structure Startable (r : Room) : Prop where
  waiting : r.state = .roomWaiting
  ordered : r.roomConfig.minPlayers ≤ r.roomConfig.maxPlayers
  space : 1 ≤ r.roomConfig.maxPlayers

structure FirstRoom (s : Roomserver) : Prop where
  /-- As long as there is one room, its players are in the registry. -/
  entered : s.roomIdCounter ≤ 1 → ∀ (r : Room) (cidHash : Nat), s.roomHeap[0]? = some r →
    cidHash ∈ r.playermap → s.connectionMap[cidHash]? = some 0
  alone : ∀ r : Room, s.roomHeap[0]? = some r → Startable r → s.roomIdCounter = 1

/-- A room that can start takes every new player. -/
theorem Startable.accepts {cidHash prev : Nat} (startable : Startable r) (inv : r.Inv)
    (absent : cidHash ∉ r.playermap) :
    r.accepts cidHash prev = true := by
  have vacancy := inv.vacancy startable.waiting startable.ordered startable.space
  have unkept : r.disconnectedPlayers = [] := by
    by_contra kept
    exact Room.started_ne_waiting (inv.kept kept) startable.waiting
  have fresh : r.resumedSeat prev = none := by
    simp [Room.resumedSeat, Room.findInDisconnectedPlayers, unkept]
  have unseated : r.playermap.contains cidHash = false := by
    rwa [TreeMap.mem_iff_contains, Bool.not_eq_true] at absent
  simp [Room.accepts, fresh, unseated, vacancy, startable.waiting]

theorem FirstRoom.live_first (first : s.FirstRoom) (sound : Sound site s)
    (live : s.roomHeap[0]? = some r) (startable : Startable r) (other : s.roomHeap[p]? = some r') :
    p = 0 ∧ r' = r := by
  have born := sound.born other
  rw [first.alone r live startable] at born
  obtain rfl : p = 0 := by omega
  exact ⟨rfl, Option.some.inj (other.symm.trans live)⟩

/-- While the first room can start, no request creates a second one. -/
theorem FirstRoom.not_creates (first : s.FirstRoom) (sound : Sound site s)
    (live : s.roomHeap[0]? = some r) (startable : Startable r) (q : QconnIo)
    (msg : MsgRoomMatchRequest) :
    s.joinOutcome q msg ≠ .ok .creates := by
  have inv := sound.inv live
  simp only [joinOutcome]
  cases target : s.targetRoom q msg with
  | error fault => simp
  | ok found =>
    cases found with
    | some entry =>
      obtain ⟨p, r'⟩ := entry
      obtain ⟨_, rfl⟩ := first.live_first sound live startable (targetRoom_some target).1
      cases seated : r'.playermap.contains q.cidHashVal with
      | true => simp [seated]
      | false =>
        have absent : q.cidHashVal ∉ r'.playermap := by simp [TreeMap.mem_iff_contains, seated]
        simp [seated, startable.accepts inv absent]
    | none =>
      have absent : q.cidHashVal ∉ r.playermap := by
        intro seated
        have mapped := first.entered (Nat.le_of_eq (first.alone r live startable)) r _ live seated
        simp [targetRoom, mapped, deref_ok.mpr live] at target
      have waits : 0 ∈ s.waitingRooms := sound.waiting_iff.mpr ⟨r, live, startable.waiting⟩
      have accepting : s.firstAccepting q.cidHashVal s.waitingRooms = .ok (some 0) := by
        cases waiting : s.waitingRooms with
        | nil => simp [waiting] at waits
        | cons p rest =>
          obtain ⟨r', found, _⟩ :=
            sound.waiting_iff.mp (waiting ▸ List.mem_cons_self .. : p ∈ s.waitingRooms)
          obtain ⟨rfl, rfl⟩ := first.live_first sound live startable found
          simp only [firstAccepting, deref_ok.mpr live, startable.accepts inv absent, if_true]
      simp [accepting]

/-! ### The counter of rooms -/

theorem counter_operated {op : Room.Op} (sound : Sound site s) (live : s.roomHeap[p]? = some r)
    (allowed : r.allows op = true) :
    (s.updateRoom site p (r.apply op).1 (r.apply op).2).roomIdCounter = s.roomIdCounter :=
  (updateRoom_frame site s p (Room.change_of_inv (sound.inv live) allowed)).2.2.2.2.2

theorem Sweeps.counter (sweeps : Sweeps site s zombies t) : t.roomIdCounter = s.roomIdCounter := by
  induction sweeps with
  | done => rfl
  | next found rest ih =>
    rw [ih, swept, deleteRoom_eq]
    rfl

/-- Only a request that creates a room moves the counter. -/
theorem Effect.counter (sound : Sound site s) (effect : Effect site s e t) :
    t.roomIdCounter = s.roomIdCounter ∨
      t.roomIdCounter = s.roomIdCounter + 1 ∧ ∃ q msg, s.joinOutcome q msg = .ok .creates := by
  cases effect with
  | connect | connected | hi | ignored | shutdown | unseated | clock | keyExpires | keyExpired =>
    exact .inl rfl
  | @request _ _ _ _ ptr connection requests joined =>
    cases joined with
    | alreadySeated => exact .inl rfl
    | joins outcome found =>
      exact .inl (counter_operated (sound_matched sound ptr connection) found rfl)
    | creates outcome =>
      rw [joinOutcome_matched] at outcome
      exact .inr ⟨(joinNewRoom_frame site _ _ _).2.2.2, _, _, outcome⟩
  | chat found mapped live => exact .inl (counter_operated sound live rfl)
  | tick live active => exact .inl (counter_operated sound live active)
  | leaves found mapped live => exact .inl (vacates_frame sound live _).2.2.2
  | @leavesLast middle ptr room connection r found mapped live ended empty same listed =>
    have kept : middle.roomIdCounter = s.roomIdCounter := same ▸ (vacates_frame sound live _).2.2.2
    rw [deleteRoom_eq]
    exact .inl kept
  | sweeps sweeps => exact .inl sweeps.counter

/-! ### Along a run -/

theorem FirstRoom.alone_after (first : s.FirstRoom) (sound : Sound site s)
    (effect : Effect site s e t) (live : t.roomHeap[0]? = some r') (startable : Startable r') :
    t.roomIdCounter = 1 := by
  have counter := effect.counter sound
  cases before : s.roomHeap[0]? with
  | none =>
    obtain ⟨_, _, _, _, _, _, _, _, zero, _⟩ := effect.born sound before live
    have born := (effect.sound sound).born live
    omega
  | some r =>
    have moves := effect.moves sound before live
    have inv := sound.inv before
    have forward := moves.forward inv
    have sameConfig : r'.roomConfig = r.roomConfig := by
      cases moves with
      | stays => rfl
      | operates allowed => exact Room.apply_roomConfig inv allowed
    have waited : Startable r := by
      refine ⟨?_, sameConfig ▸ startable.ordered, sameConfig ▸ startable.space⟩
      have ready := inv.initialised
      rw [startable.waiting] at forward
      cases state : r.state <;> simp_all [States.rank]
    obtain same | ⟨_, q, msg, creates⟩ := counter
    · rw [same, first.alone r before waited]
    · exact absurd creates (first.not_creates sound before waited q msg)

/-- One room changes and keeps its players. -/
theorem FirstRoom.entered_insert (first : s.FirstRoom) (live : s.roomHeap[p]? = some r)
    (players : r'.playermap = r.playermap) (few : s.roomIdCounter ≤ 1) (r₁ : Room) (cidHash : Nat)
    (after : (s.roomHeap.insert p r')[0]? = some r₁) (seated : cidHash ∈ r₁.playermap) :
    s.connectionMap[cidHash]? = some 0 := by
  rw [OrderedMap.lookup_insert] at after
  split at after
  · rename_i zero
    cases Option.some.inj after
    exact first.entered few r cidHash (zero ▸ live) (players ▸ seated)
  · exact first.entered few r₁ cidHash after seated

theorem FirstRoom.entered_joined (first : s.FirstRoom) (sound : Sound site s) {q : QconnIo}
    {msg : MsgRoomMatchRequest} (joined : Joined site s q msg t) (few : t.roomIdCounter ≤ 1)
    (r' : Room) (cidHash : Nat) (after : t.roomHeap[0]? = some r')
    (seated : cidHash ∈ r'.playermap) : t.connectionMap[cidHash]? = some 0 := by
  cases joined with
  | alreadySeated => exact first.entered few r' cidHash after seated
  | @joins room prev r base outcome found accepted same =>
    change (s.updateRoom site room _ _).roomIdCounter ≤ 1 at few
    rw [counter_operated sound found rfl] at few
    have born := sound.born found
    obtain rfl : room = 0 := by omega
    change (s.updateRoom site 0 _ _).roomHeap[0]? = some r' at after
    rw [heap_updateRoom sound found rfl, OrderedMap.lookup_insert, if_pos rfl] at after
    cases Option.some.inj after
    rw [Room.apply_tryAdd_playermap accepted, OrderedMap.mem_insert_iff] at seated
    rw [OrderedMap.lookup_insert]
    split
    · rfl
    · rename_i other
      rw [same cidHash (Ne.symm other)]
      exact first.entered few r cidHash found (seated.resolve_left other)
  | @creates base outcome same =>
    obtain ⟨_, _, map, counter⟩ := joinNewRoom_frame site { s with connectionMap := base } q msg
    rw [counter] at few
    have zero : s.roomIdCounter = 0 := by
      change s.roomIdCounter + 1 ≤ 1 at few
      omega
    rw [heap_joinNewRoom, if_pos zero] at after
    cases Option.some.inj after
    obtain ⟨player, seat⟩ := OrderedMap.mem_iff_lookup.mp seated
    rw [map, (newborn_playermap _ _ _ _ _ seat).1, OrderedMap.lookup_insert, if_pos rfl]
    exact congrArg some zero

theorem FirstRoom.entered_vacates (first : s.FirstRoom) (sound : Sound site s) (q : QconnIo)
    (live : s.roomHeap[p]? = some r) (few : s.roomIdCounter ≤ 1) (r' : Room) (cidHash : Nat)
    (after : (s.vacates site q p r).roomHeap[0]? = some r') (seated : cidHash ∈ r'.playermap) :
    (s.vacates site q p r).connectionMap[cidHash]? = some 0 := by
  have born := sound.born live
  obtain rfl : p = 0 := by omega
  rw [heap_vacates sound live, OrderedMap.lookup_insert, if_pos rfl] at after
  cases Option.some.inj after
  rw [OrderedMap.mem_iff_lookup, Room.apply_remove_lookup (sound.inv live)] at seated
  rw [vacates, connectionMap_updateRoom, OrderedMap.lookup_erase]
  split at seated
  · obtain ⟨_, impossible⟩ := seated
    cases impossible
  · rename_i other
    rw [if_neg other]
    exact first.entered few r cidHash live (OrderedMap.mem_iff_lookup.mpr seated)

theorem FirstRoom.entered_after (first : s.FirstRoom) (sound : Sound site s)
    (effect : Effect site s e t) (few : t.roomIdCounter ≤ 1) (r' : Room) (cidHash : Nat)
    (after : t.roomHeap[0]? = some r') (seated : cidHash ∈ r'.playermap) :
    t.connectionMap[cidHash]? = some 0 := by
  cases effect with
  | connect | connected | hi | ignored | shutdown | unseated | clock | keyExpires | keyExpired =>
    exact first.entered few r' cidHash after seated
  | @request _ _ _ _ ptr connection requests joined =>
    have firstMatched : (s.matched ptr connection).FirstRoom := ⟨first.entered, first.alone⟩
    exact firstMatched.entered_joined
      (sound_matched sound ptr connection) joined few r' cidHash after seated
  | @chat buf _ ptr room connection r found mapped live present =>
    rw [counter_operated sound live rfl] at few
    rw [heap_updateRoom sound live rfl] at after
    rw [connectionMap_updateRoom]
    exact first.entered_insert live (by rw [Room.apply_message]) few r' cidHash after seated
  | tick live active =>
    rw [counter_operated sound live active] at few
    rw [heap_updateRoom sound live active] at after
    rw [connectionMap_updateRoom]
    exact first.entered_insert live
      (Room.apply_tick_seats (sound.inv live) active).1 few r' cidHash after seated
  | @leaves ptr room connection r found mapped live stays =>
    have counter := (vacates_frame sound live ⟨ptr, connection.cidHashVal⟩).2.2.2
    change (s.vacates site ⟨ptr, connection.cidHashVal⟩ room r).roomIdCounter ≤ 1 at few
    rw [counter] at few
    exact first.entered_vacates sound _ live few r' cidHash after seated
  | @leavesLast middle ptr room connection r found mapped live ended empty same listed =>
    have counter := (vacates_frame sound live ⟨ptr, connection.cidHashVal⟩).2.2.2
    have heap := heap_vacates sound live ⟨ptr, connection.cidHashVal⟩
    rw [deleteRoom_eq] at few after
    change middle.roomIdCounter ≤ 1 at few
    change (middle.roomHeap.erase room)[0]? = some r' at after
    rw [same, counter] at few
    have born := sound.born live
    obtain rfl : room = 0 := by omega
    rw [OrderedMap.lookup_erase, if_pos rfl] at after
    cases after
  | @sweeps zombies _ sweeps listed =>
    rw [sweeps.counter] at few
    have alive := (sweeps.heap 0).symm.trans after
    have spared : 0 ∉ zombies := by
      intro member
      rw [if_pos member] at alive
      cases alive
    -- every zombie was live, and only the first room was
    cases sweeps with
    | done => exact first.entered few r' cidHash after seated
    | @next _ _ room zombie _ found rest =>
      have born := sound.born found
      obtain rfl : room = 0 := by omega
      exact absurd (List.mem_cons_self ..) spared

theorem firstRoom_of_run (run : (machine site).Run es s) : s.FirstRoom := by
  refine Machine.Run.induction (P := fun _ s => s.FirstRoom) ?_ ?_ run
  · constructor
    case entered =>
      intro _ r cidHash live
      simp [machine] at live
    case alone =>
      intro r live
      simp [machine] at live
  · intro es s e t before first step
    have sound := sound_of_run before
    have effect := step_effect step
    exact ⟨fun few r cidHash live seated => first.entered_after sound effect few r cidHash live seated,
      fun r live startable => first.alone_after sound effect live startable⟩

end Gearsdk.Roomserver
