import Gearsdk.Roomserver.Registration

/-! Kept seats. A started room that takes no newcomers neither loses nor gains a
player object: a player who drops out leaves his seat behind, and a request with
the hash of that seat takes it up again. -/
namespace Gearsdk.Roomserver
open Std Transition

variable {site : Site} {s t : Roomserver} {p : Nat} {r r' : Room} {hashes : List Nat}

/-! ### Conservation -/

/-- A started room takes only players with a kept seat, unless it is configured
otherwise. -/
theorem resumes_of_accepts (started : r.state = .roomStart)
    (closed : r.roomConfig.allowJoinAfterStart = false) (accepted : r.accepts cidHash prev = true) :
    ∃ seat, r.resumedSeat prev = some seat := by
  simp only [Room.accepts, closed, started, Bool.and_eq_true, Bool.or_eq_true,
    decide_eq_true_eq] at accepted
  obtain ⟨⟨⟨_, (resumed | waiting) | never⟩, _⟩, _⟩ := accepted
  · exact Option.isSome_iff_exists.mp resumed
  · exact absurd waiting (by decide)
  · contradiction

/-- The seat of a live connection is not among the kept ones. -/
theorem Registry.not_kept {conns : TreeMap Nat Connection} {map : TreeMap Nat Nat}
    {heap : TreeMap Nat Room} {counter ptr : Nat} {connection : Connection}
    (registry : Registry hashes conns map heap counter) (live : heap[p]? = some r)
    (found : conns[ptr]? = some connection) :
    r.findInDisconnectedPlayers connection.cidHashVal = none := by
  simp only [Room.findInDisconnectedPlayers, List.find?_eq_none, decide_eq_true_eq]
  intro seat member same
  exact (registry.kept live member).2 found same.symm

theorem Moves.seats (registry : Registered hashes s) (sound : Sound site s)
    (live : s.roomHeap[p]? = some r) (moves : Moves s e p r r')
    (closed : r.roomConfig.allowJoinAfterStart = false) (started : r.state = .roomStart)
    (remains : r'.state = .roomStart) : r'.seats.Perm r.seats := by
  have still : r.state ≠ .roomWaiting := by simp [started]
  cases moves with
  | stays => exact List.Perm.refl _
  | @operates op allowed reason =>
    have change := Room.change_of_inv (sound.inv live) allowed
    cases op with
    | tryAdd q pid prev =>
      generalize (r.apply (.tryAdd q pid prev)).1 = r', (r.apply (.tryAdd q pid prev)).2 =
        calls at change remains
      cases change with
      | rejected => exact List.Perm.refl _
      | seated accepted =>
        obtain ⟨seat, resumed⟩ := resumes_of_accepts started closed accepted
        exact Room.seats_occupied_resumed pid (Room.absent_of_accepts accepted) resumed
      | fills _ waiting => exact absurd waiting still
      | countsDown _ waiting => exact absurd waiting still
    | remove q =>
      obtain ⟨connection, _, found, same, _⟩ := reason
      have unknown : r.findInDisconnectedPlayers q.cidHashVal = none := by
        rw [same]
        exact registry.not_kept live found
      generalize (r.apply (.remove q)).1 = r', (r.apply (.remove q)).2 = calls at change remains
      cases change with
      | forgets =>
        rw [Room.removeFromDisconnectedPlayers_unknown unknown]
      | leaves _ waiting | cancels _ waiting => exact absurd waiting still
      | ends => cases remains
      | leavesEnded _ ended =>
        rw [started] at ended
        cases ended
      | @keeps _ player seat =>
        exact (Room.seats_addToDisconnectedPlayers (r.vacated q) player).trans
          (Room.seats_vacated seat).symm
      | drops _ _ _ known =>
        rw [unknown] at known
        cases known
    | tick timer =>
      generalize (r.apply (.tick timer)).1 = r', (r.apply (.tick timer)).2 = calls at change remains
      cases change with
      | ticks _ _ waiting => exact absurd waiting still
      | lastTick _ _ waiting => exact absurd waiting still
    | message cidHash msg =>
      rw [Room.apply_message]

/-- A room that is live at the end of a path, and was at its start, is live all along. -/
theorem live_between (run : (machine site).Run es s) (path : (machine site).Reaches s fs u)
    (step : (machine site).Step u e t) (live : s.roomHeap[p]? = some r)
    (still : t.roomHeap[p]? = some r') :
    ∃ r₁, u.roomHeap[p]? = some r₁ := by
  cases middle : u.roomHeap[p]? with
  | some r₁ => exact ⟨r₁, rfl⟩
  | none =>
    have born := Nat.lt_of_lt_of_le ((sound_of_run run).born live) (later_of_path run path).1
    have later := (step_effect step).later (sound_of_run (run.trans path))
    rw [(later.2 p born).1 middle] at still
    contradiction

theorem config_of_path (run : (machine site).Run es s) (path : (machine site).Reaches s fs t)
    (live : s.roomHeap[p]? = some r) (still : t.roomHeap[p]? = some r') :
    r'.roomConfig = r.roomConfig := by
  induction path generalizing r' with
  | refl =>
    cases Option.some.inj (live.symm.trans still)
    rfl
  | step earlier last ih =>
    obtain ⟨r₁, middle⟩ := live_between run earlier last live still
    have sound := sound_of_run (run.trans earlier)
    rw [← ih middle]
    cases (step_effect last).moves sound middle still with
    | stays => rfl
    | operates allowed => exact Room.apply_roomConfig (sound.inv middle) allowed

theorem started_between (run : (machine site).Run es s) (path : (machine site).Reaches s fs u)
    (step : (machine site).Step u e t) (live : s.roomHeap[p]? = some r)
    (middle : u.roomHeap[p]? = some r₁) (still : t.roomHeap[p]? = some r')
    (started : r.state = .roomStart) (remains : r'.state = .roomStart) :
    r₁.state = .roomStart := by
  have sound := sound_of_run (run.trans path)
  have before := ((later_of_path run path).2 p ((sound_of_run run).born live)).2 r r₁ live middle
  have after := ((step_effect step).moves sound middle still).forward (sound.inv middle)
  rw [started] at before
  rw [remains] at after
  cases state : r₁.state <;> simp_all [States.rank]

/-- Seats are conserved from one state of a started room to any later one in
which it has not ended, and no room ever seats more players than it has places. -/
theorem seats_conserved (run : (machine site).Run es s) (path : (machine site).Reaches s fs t)
    (distinct : (usedHashes (es ++ fs)).Nodup) :
    (∀ (p : Nat) (r : Room), s.roomHeap[p]? = some r →
    r.getPlaymapCount ≤ max r.roomConfig.maxPlayers 0) ∧
    (∀ (p : Nat) (r r' : Room), s.roomHeap[p]? = some r → t.roomHeap[p]? = some r' →
      r.roomConfig.allowJoinAfterStart = false → r.state = .roomStart → r'.state = .roomStart →
      r'.seats.Perm r.seats ∧ (r'.seats.map Prod.fst).Nodup) := by
  refine ⟨fun p r live => ((sound_of_run run).inv live).capacity, ?_⟩
  intro p r r' live still closed started remains
  refine ⟨?_, ((sound_of_run (run.trans path)).inv still).seated.distinct⟩
  induction path generalizing r' with
  | refl =>
    cases Option.some.inj (live.symm.trans still)
    exact List.Perm.refl _
  | @step gs u e v earlier last ih =>
    have upto := run.trans earlier
    have shorter : (usedHashes (es ++ gs)).Nodup := by
      rw [← List.append_assoc, usedHashes_append] at distinct
      exact (List.nodup_append.mp distinct).1
    obtain ⟨r₁, middle⟩ := live_between run earlier last live still
    have stays := started_between run earlier last live middle still started remains
    have sameConfig := config_of_path run earlier live middle
    have moves := (step_effect last).moves (sound_of_run upto) middle still
    have kept := moves.seats (registered_of_run upto shorter) (sound_of_run upto) middle
      (sameConfig ▸ closed) stays remains
    exact kept.trans (ih shorter r₁ middle stays)

/-- Three players fill a room for two or three. -/
def rally : List Event :=
  arrival 1 11 { roomConfig := { min := 2, max := 3 }, pid := [97] } ++
    arrival 2 22 { roomConfig := { min := 2, max := 3 }, pid := [98] } ++
    arrival 3 33 { roomConfig := { min := 2, max := 3 }, pid := [99] }

/-- The third player, on another connection, names the hash of the first. -/
def stranger : MsgRoomMatchRequest :=
  { roomConfig := { min := 2, max := 3 }, pid := [99], roomId := 0, prevCidHashVal := 11 }

/-- The first player drops out, and the stranger connects. -/
def dropout : List Event := [.destroyConnection 1, .connect 4 44, .connected 4]

/-- The stranger asks for the seat of the first player. -/
def takeover : Event := .message 4 [] (some stranger.serialize)

/-- After the takeover the room still holds the player objects of the start. -/
theorem seats_conserved_takeover :
    ∃ s t r r', (machine ⟨.gameRoom, [], []⟩).Run rally s ∧
      (machine ⟨.gameRoom, [], []⟩).Reaches s (dropout ++ [takeover]) t ∧
      s.roomHeap[0]? = some r ∧ t.roomHeap[0]? = some r' ∧ r'.seats.Perm r.seats := by
  have shownEnd : ((machine ⟨.gameRoom, [], []⟩).exec {} (rally ++ (dropout ++ [takeover]))).map
      (fun t => (t.roomHeap[0]?).map (·.state)) = some (some .roomStart) := by decide +kernel
  have shownStart : ((machine ⟨.gameRoom, [], []⟩).exec {} rally).map
      (fun s => (s.roomHeap[0]?).map fun r => (r.state, r.roomConfig.allowJoinAfterStart)) =
      some (some (.roomStart, false)) := by decide +kernel
  obtain ⟨t, whole, sameEnd⟩ := Machine.exec_observe shownEnd
  obtain ⟨s, run, sameStart⟩ := Machine.exec_observe shownStart
  obtain ⟨_, first, path⟩ := whole.split
  cases run.unique first
  obtain ⟨r, live, start⟩ := Option.map_eq_some_iff.mp sameStart
  obtain ⟨r', still, remains⟩ := Option.map_eq_some_iff.mp sameEnd
  obtain ⟨started, closed⟩ := Prod.mk.inj start
  have conserved :=
    (seats_conserved run path (by decide)).2 0 r r' live still closed started remains
  exact ⟨s, t, r, r', run, path, live, still, conserved.1⟩

/-! ### Owners -/

/-- How a kept seat comes to be taken up again. -/
structure Resumes (s : Roomserver) (e : Event) (p : Nat) (r : Room) (seat : DisconnectedPlayer)
    (cidHash : Nat) (player : Player) : Prop where
  /-- The request carries the hash of the seat, and comes from a connection that
  is entered for the room or names it. -/
  requested : ∃ ptr buf doc connection rq, e = .message ptr buf doc ∧
    Requests s ptr doc connection rq ∧
    connection.cidHashVal = cidHash ∧ rq.prevCidHashVal = seat.hash ∧
    (s.connectionMap[cidHash]? = some p ∨ rq.roomId = p)
  keyed : seat.hash ≠ 0
  place : r.getPlaymapCount < r.roomConfig.maxPlayers
  allowed : r.canAllowReconnection cidHash = true
  sameOwner : player.pid = seat.pid

theorem not_seated_and_kept {cidHash : Nat} {seat : DisconnectedPlayer} {player : Player}
    (seated : r.Seated) (kept : seat ∈ r.disconnectedPlayers)
    (sits : r.playermap[cidHash]? = some player) (same : player.ptr = seat.playerPtr) : False := by
  have distinct := seated.distinct
  simp only [Room.seats, List.map_append, List.map_map] at distinct
  obtain ⟨_, _, apart⟩ := List.nodup_append.mp distinct
  refine apart player.ptr ?_ seat.playerPtr ?_ same
  · refine List.mem_map.mpr ⟨player, ?_, rfl⟩
    exact List.mem_map.mpr ⟨(cidHash, player), TreeMap.mem_toList_iff_getElem?_eq_some.mpr sits, rfl⟩
  · exact List.mem_map.mpr ⟨seat, kept, rfl⟩

theorem resumedSeat_some (resumed : r.resumedSeat prev = some seat) :
    prev ≠ 0 ∧ seat ∈ r.disconnectedPlayers ∧ seat.hash = prev := by
  simp only [Room.resumedSeat] at resumed
  split at resumed
  · rename_i positive
    have named : seat.hash = prev := by simpa using List.find?_some resumed
    exact ⟨by omega, List.mem_of_find?_eq_some resumed, named⟩
  · cases resumed

theorem kept_unique {seat seat' : DisconnectedPlayer} (seated : r.Seated)
    (kept : seat ∈ r.disconnectedPlayers) (kept' : seat' ∈ r.disconnectedPlayers)
    (same : seat.playerPtr = seat'.playerPtr) : seat = seat' := by
  have distinct := seated.distinct
  simp only [Room.seats, List.map_append, List.map_map] at distinct
  exact List.inj_on_of_nodup_map (List.nodup_append.mp distinct).2.1 kept kept' same

/-- Who enters at the place of a kept seat takes that seat up. -/
theorem resumedSeat_of_entrant {q : QconnIo} {seat : DisconnectedPlayer} (seated : r.Seated)
    (kept : seat ∈ r.disconnectedPlayers) (same : (r.entrant q pid prev).ptr = seat.playerPtr) :
    r.resumedSeat prev = some seat := by
  cases resumed : r.resumedSeat prev with
  | none =>
    have older := seated.allocated (seat.playerPtr, seat.pid)
      (List.mem_append_right _ (List.mem_map.mpr ⟨seat, kept, rfl⟩))
    simp only [Room.entrant, resumed] at same
    omega
  | some seat' =>
    obtain ⟨_, kept', _⟩ := resumedSeat_some resumed
    have sameSeat : seat' = seat := by
      refine kept_unique seated kept' kept ?_
      simpa only [Room.entrant, resumed] using same
    rw [sameSeat]

/-- A request that enters a room under a previous hash has named that room. -/
theorem joinOutcome_joins {q : QconnIo} {msg : MsgRoomMatchRequest} {prev : Nat}
    (outcome : s.joinOutcome q msg = .ok (.joins p prev)) :
    prev = 0 ∨ prev = msg.prevCidHashVal ∧ ∃ r : Room, s.targetRoom q msg = .ok (some (p, r)) := by
  simp only [joinOutcome] at outcome
  split at outcome
  · cases outcome
  · rename_i room r target
    split at outcome
    · cases outcome
    · split at outcome
      · obtain ⟨rfl, rfl⟩ : room = p ∧ msg.prevCidHashVal = prev := by simpa using outcome
        exact .inr ⟨rfl, r, target⟩
      · cases outcome
  · split at outcome
    · cases outcome
    · obtain ⟨_, none_before⟩ : _ = p ∧ 0 = prev := by simpa using outcome
      exact .inl none_before.symm
    · cases outcome

/-- A kept seat is taken up again by whoever names its hash; the player id of
the request is not compared with the one of the seat. -/
theorem kept_seat_resumed (run : (machine site).Run es s) (step : (machine site).Step s e t)
    {seat : DisconnectedPlayer} {player : Player} {cidHash : Nat}
    (live : s.roomHeap[p]? = some r) (still : t.roomHeap[p]? = some r')
    (kept : seat ∈ r.disconnectedPlayers) (sits : r'.playermap[cidHash]? = some player)
    (same : player.ptr = seat.playerPtr) : Resumes s e p r seat cidHash player := by
  have sound := sound_of_run run
  have inv := sound.inv live
  have fresh : r.playermap[cidHash]? ≠ some player :=
    fun before => not_seated_and_kept inv.seated kept before same
  cases (step_effect step).moves sound live still with
  | stays => exact absurd sits fresh
  | @operates op allowed reason =>
    cases op with
    | remove q =>
      rw [Room.apply_remove_lookup inv] at sits
      split at sits
      · cases sits
      · exact absurd sits fresh
    | tick timer =>
      rw [(Room.apply_tick_seats inv allowed).1] at sits
      exact absurd sits fresh
    | message cidHash msg =>
      rw [Room.apply_message] at sits
      exact absurd sits fresh
    | tryAdd q pid prev =>
      obtain ⟨buf, doc, connection, rq, rfl, requests, sameHash, _, outcome⟩ := reason
      cases accepted : r.accepts q.cidHashVal prev with
      | false =>
        rw [Room.apply_tryAdd_rejected accepted] at sits
        exact absurd sits fresh
      | true =>
        rw [Room.apply_tryAdd_playermap accepted, OrderedMap.lookup_insert] at sits
        split at sits
        · rename_i here
          cases Option.some.inj sits
          have resumed := resumedSeat_of_entrant inv.seated kept same
          obtain ⟨positive, _, named⟩ := resumedSeat_some resumed
          obtain zero | ⟨asked, r₁, target⟩ := joinOutcome_joins outcome
          · exact absurd zero positive
          refine ⟨⟨q.ptr, buf, doc, connection, rq, rfl, requests, sameHash ▸ here, ?_, ?_⟩, ?_,
            ?_, ?_, ?_⟩
          · rw [named, asked]
          · obtain ⟨found, own | ⟨_, previous⟩⟩ := targetRoom_some target
            · exact .inl (here ▸ own)
            · obtain ⟨_, _, _, sameRoom, _⟩ := findPreviousRoom_some previous
              rw [← sameRoom]
              exact .inr (sound.lives found).roomId
          · rw [named]
            exact positive
          · exact Room.room_of_accepts accepted
          · simp only [Room.accepts, resumed, Bool.and_eq_true] at accepted
            rw [← here]
            simpa using accepted.2
          · simp only [Room.entrant, resumed]
        · exact absurd sits fresh

/-- The takeover, step by step: the seat that is kept, what the third player was
told about it, and who sits in it afterwards. -/
theorem takeover_shown :
    ∃ s t r r', (machine ⟨.gameRoom, [], []⟩).Run (rally ++ dropout) s ∧
      (machine ⟨.gameRoom, [], []⟩).Step s takeover t ∧ s.roomHeap[0]? = some r ∧
        t.roomHeap[0]? = some r' ∧
      r.disconnectedPlayers = [⟨11, 0, [97]⟩] ∧ r'.playermap[44]? = some ⟨0, ⟨4, 44⟩, [97]⟩ ∧
      (0, .sendmessage ⟨3, 33⟩ (.playerRemove 0 [⟨11, true, [97]⟩, ⟨22, false, [98]⟩,
        ⟨33, false, [99]⟩] 33)) ∈
        s.log := by
  have shownEnd : ((machine ⟨.gameRoom, [], []⟩).exec {} (rally ++ dropout ++ [takeover])).map
      (fun t => (t.roomHeap[0]?).map fun r => r.playermap[44]?) =
        some (some (some ⟨0, ⟨4, 44⟩, [97]⟩)) := by
    decide +kernel
  have shownStart : ((machine ⟨.gameRoom, [], []⟩).exec {} (rally ++ dropout)).map
      (fun s => ((s.roomHeap[0]?).map (·.disconnectedPlayers), decide ((0, RoomCall.sendmessage ⟨3, 33⟩
        (.playerRemove 0 [⟨11, true, [97]⟩, ⟨22, false, [98]⟩, ⟨33, false, [99]⟩] 33)) ∈ s.log))) =
      some (some [⟨11, 0, [97]⟩], true) := by decide +kernel
  obtain ⟨t, whole, sameEnd⟩ := Machine.exec_observe shownEnd
  obtain ⟨s, run, sameStart⟩ := Machine.exec_observe shownStart
  obtain ⟨_, first, step⟩ := whole.snoc_inv
  cases run.unique first
  obtain ⟨kept, told⟩ := Prod.mk.inj sameStart
  obtain ⟨r, live, kept⟩ := Option.map_eq_some_iff.mp kept
  obtain ⟨r', still, sits⟩ := Option.map_eq_some_iff.mp sameEnd
  exact ⟨s, t, r, r', run, step, live, still, kept, sits, of_decide_eq_true told⟩

/-- The seat of the player with one id is taken up by a request with another,
which knows no more than a player event has told its sender. -/
theorem seat_taken_over :
    ∃ s t r r' seat player players, (machine ⟨.gameRoom, [], []⟩).Run (rally ++ dropout) s ∧
      (machine ⟨.gameRoom, [], []⟩).Step s takeover t ∧ s.roomHeap[0]? = some r ∧
        t.roomHeap[0]? = some r' ∧
      seat ∈ r.disconnectedPlayers ∧ r'.playermap[44]? = some player ∧ player.ptr = seat.playerPtr ∧
      stranger.prevCidHashVal = seat.hash ∧ stranger.pid ≠ seat.pid ∧
      (0, .sendmessage ⟨3, 33⟩ (.playerRemove 0 players 33)) ∈ s.log ∧
        ⟨seat.hash, true, seat.pid⟩ ∈ players := by
  obtain ⟨s, t, r, r', run, step, live, still, kept, sits, told⟩ := takeover_shown
  refine ⟨s, t, r, r', ⟨11, 0, [97]⟩, _, _, run, step, live, still, ?_, sits, rfl, rfl,
    by decide, told, ?_⟩
  · rw [kept]
    exact List.mem_cons_self ..
  · exact List.mem_cons_self ..

theorem kept_seat_resumed_takeover :
    ∃ s r, (machine ⟨.gameRoom, [], []⟩).Run (rally ++ dropout) s ∧ s.roomHeap[0]? = some r ∧
      Resumes s takeover 0 r ⟨11, 0, [97]⟩ 44 ⟨0, ⟨4, 44⟩, [97]⟩ := by
  obtain ⟨s, t, r, r', run, step, live, still, kept, sits, _⟩ := takeover_shown
  have member : ⟨11, 0, [97]⟩ ∈ r.disconnectedPlayers := by
    rw [kept]
    exact List.mem_cons_self ..
  exact ⟨s, r, run, live, kept_seat_resumed run step live still member sits rfl⟩

end Gearsdk.Roomserver
