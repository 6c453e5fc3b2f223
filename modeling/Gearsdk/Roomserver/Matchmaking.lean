import Gearsdk.Roomserver.Registration

/-! Matchmaking and the configuration that a request asks for. A room that is
created takes over three of the five fields; the search over the waiting rooms
looks at none of them. -/
namespace Gearsdk.Roomserver
open Std Transition

variable {site : Site} {s t : Roomserver} {ptr p : Nat} {connection : Connection} {r r' : Room}

/-- The request of a new connection, as a client serialises it, reaches
`do_process_roomjoin` with what the client wrote. -/
theorem requests_of_serialize (found : s.conns[ptr]? = some connection)
    (unmatched : connection.roomConfigReceived = false)
    (listed : s.newConnections.contains ptr = true) (msg : MsgRoomMatchRequest) (fits : msg.Fits) :
    ∃ base, Requests s ptr (some msg.serialize) connection { msg with base } := by
  have deserialized := MsgRoomMatchRequest.deserialize_serialize msg fits
  have silent : deserializeFirstHiMessage (some msg.serialize) = -3 := rfl
  have crc : msg.serialize.member? "t_crc" = some (.int (typeStringCrc "msg_room_match_request")) :=
    rfl
  have inside := typeStringCrc_lt "msg_room_match_request"
  have header : ∃ sig, deserializeHeader (some msg.serialize) =
      .ok (sig, typeStringCrc "msg_room_match_request") := by
    generalize typeStringCrc "msg_room_match_request" = n at crc inside
    have bounds : (-2 ^ 63 : Int) ≤ n ∧ (n : Int) ≤ 2 ^ 63 - 1 := by omega
    have wraps : ((n : Int) % 2 ^ 64).toNat = n := by omega
    have object : msg.serialize.isObject = true := rfl
    refine ⟨(((msg.serialize.member? "sig").bind Json.getUint).map (· % 2 ^ 16)).getD 0, ?_⟩
    simp only [deserializeHeader, object, if_true, crc, Option.bind_some, Json.getInt64,
      Json.inRange, if_pos bounds, wraps]
  obtain ⟨sig, header⟩ := header
  refine ⟨_, found, unmatched, listed, by simp [silent], _, sig, _, rfl, header, ?_, deserialized⟩
  simp only [messageHandlers, if_true]

/-! ### Requested and actual configuration -/

/-- The room has the configuration that the request asks for. -/
structure Respects (c : MsgRoomConfig) (roomConfig : RoomConfig) : Prop where
  minPlayers : roomConfig.minPlayers = c.min
  maxPlayers : roomConfig.maxPlayers = c.max
  betAmountx : roomConfig.betAmountx = c.betx
  rewardMultiplierx : roomConfig.rewardMultiplierx = c.rewardx
  allowJoinAfterStart : roomConfig.allowJoinAfterStart = c.allowAfterStart

/-- The request asks for the default stakes, and the live room that takes the
player, if there is one, has the other three fields of the request. -/
structure Suits (s : Roomserver) (cidHash ptr : Nat) (rq : MsgRoomMatchRequest) : Prop where
  betx : rq.roomConfig.betx = 0
  rewardx : rq.roomConfig.rewardx = fxTwo
  others : ∀ (p prev : Nat) (r : Room), s.joinOutcome ⟨ptr, cidHash⟩ rq = .ok (.joins p prev) →
    s.roomHeap[p]? = some r → r.roomConfig.minPlayers = rq.roomConfig.min ∧
      r.roomConfig.maxPlayers = rq.roomConfig.max ∧
        r.roomConfig.allowJoinAfterStart = rq.roomConfig.allowAfterStart

/-- Every room of a server plays for the default stakes. -/
theorem Sound.stakes (sound : Sound site s) (live : s.roomHeap[p]? = some r) :
    r.roomConfig.betAmountx = 0 ∧ r.roomConfig.rewardMultiplierx = fxTwo := by
  obtain ⟨msg, same⟩ := (sound.lives live).config
  change r.roomConfig = .ofMsg msg at same
  rw [same]
  exact ⟨rfl, rfl⟩

/-- A room that a request seats the player in, without resuming a kept seat. -/
structure Places (s t : Roomserver) (ptr : Nat) (connection : Connection) (rq : MsgRoomMatchRequest)
    (p : Nat) (r' : Room) : Prop where
  live : t.roomHeap[p]? = some r'
  seated : connection.cidHashVal ∈ r'.playermap
  before : ∀ r : Room, s.roomHeap[p]? = some r →
    connection.cidHashVal ∉ r.playermap ∧ r.resumedSeat rq.prevCidHashVal = none

/-- A player is placed in a room with the requested configuration exactly when
the request asks for the default stakes and does not run into a waiting room with
other bounds. -/
theorem placed_config_iff {buf : Qstring} {doc : Option Json} {rq : MsgRoomMatchRequest}
    (run : (machine site).Run es s) (step : (machine site).Step s (.message ptr buf doc) t)
    (requests : Requests s ptr doc connection rq) (places : Places s t ptr connection rq p r') :
    Respects rq.roomConfig r'.roomConfig ↔ Suits s connection.cidHashVal ptr rq := by
  have sound := sound_of_run run
  have soundMatched := sound_matched sound ptr connection
  have changed : s.roomHeap[p]? ≠ some r' := fun same => (places.before r' same).1 places.seated
  have live := places.live
  cases requests.joined step with
  | alreadySeated => exact absurd live changed
  | @joins room prev r base outcome found accepted same =>
    rw [joinOutcome_matched] at outcome
    change ((s.matched ptr connection).updateRoom site room _ _).roomHeap[p]? = some r' at live
    rw [heap_updateRoom soundMatched found rfl, OrderedMap.lookup_insert] at live
    split at live
    · rename_i here
      subst here
      cases Option.some.inj live
      rw [Room.apply_roomConfig (soundMatched.inv found) rfl]
      obtain ⟨bet, reward⟩ := soundMatched.stakes found
      constructor
      · rintro ⟨min, max, betx, rewardx, allow⟩
        refine ⟨betx.symm.trans bet, rewardx.symm.trans reward, fun p prev r₁ outcome' found' => ?_⟩
        obtain ⟨rfl, _⟩ : room = p ∧ _ := by simpa using outcome.symm.trans outcome'
        cases Option.some.inj (found.symm.trans found')
        exact ⟨min, max, allow⟩
      · rintro ⟨betx, rewardx, others⟩
        obtain ⟨min, max, allow⟩ := others room prev r outcome found
        exact ⟨min, max, bet.trans betx.symm, reward.trans rewardx.symm, allow⟩
    · exact absurd live changed
  | @creates base outcome same =>
    rw [joinOutcome_matched] at outcome
    rw [heap_joinNewRoom] at live
    split at live
    · cases Option.some.inj live
      rw [newborn_roomConfig]
      constructor
      · rintro ⟨_, _, betx, rewardx, _⟩
        refine ⟨betx.symm, rewardx.symm, fun p prev r outcome' => ?_⟩
        rw [outcome] at outcome'
        cases outcome'
      · rintro ⟨betx, rewardx, _⟩
        exact ⟨rfl, rfl, betx.symm, rewardx.symm, rfl⟩
    · exact absurd live changed

/-- The first request asks for a bet, the second for at most three players. -/
theorem requested_config_ignored :
    ∃ s r, (machine ⟨.gameRoom, [], []⟩).Run
        (arrival 1 11 { roomConfig := { betx := 4096 } } ++
          arrival 2 22 { roomConfig := { max := 3 } }) s ∧
      s.roomHeap[0]? = some r ∧ 11 ∈ r.playermap ∧ 22 ∈ r.playermap ∧
      ¬ Respects { betx := 4096 } r.roomConfig ∧ ¬ Respects { max := 3 } r.roomConfig := by
  have shown : ((machine ⟨.gameRoom, [], []⟩).exec {}
        (arrival 1 11 { roomConfig := { betx := 4096 } } ++
          arrival 2 22 { roomConfig := { max := 3 } })).map
      (fun s => (s.roomHeap[0]?).map fun r => (r.playermap.contains 11, r.playermap.contains 22,
        r.roomConfig.betAmountx, r.roomConfig.maxPlayers)) = some (some (true, true, 0, 4)) := by
          decide +kernel
  obtain ⟨s, run, same⟩ := Machine.exec_observe shown
  obtain ⟨r, live, same⟩ := Option.map_eq_some_iff.mp same
  simp only [Prod.mk.injEq] at same
  obtain ⟨first, second, bet, max⟩ := same
  refine ⟨s, r, run, live, TreeMap.mem_iff_contains.mpr first,
    TreeMap.mem_iff_contains.mpr second, ?_, ?_⟩
  · intro respects
    exact absurd (bet.symm.trans respects.betAmountx) (by decide)
  · intro respects
    exact absurd (max.symm.trans respects.maxPlayers) (by decide)

/-- The first request for a room with the default stakes gets what it asks for. -/
theorem placed_config_iff_first :
    ∃ s t r, (machine ⟨.gameRoom, [], []⟩).Run [.connect 1 11, .connected 1] s ∧
      (machine ⟨.gameRoom, [], []⟩).Step s (.message 1 [] (some ({} : MsgRoomMatchRequest).serialize)) t ∧
      t.roomHeap[0]? = some r ∧ Respects {} r.roomConfig := by
  have shownEnd : ((machine ⟨.gameRoom, [], []⟩).exec {} ([.connect 1 11, .connected 1] ++
        [.message 1 [] (some ({} : MsgRoomMatchRequest).serialize)])).map
      (fun t => (t.roomHeap[0]?).map fun r => r.playermap.contains 11) = some (some true) := by
        decide +kernel
  have shownStart : ((machine ⟨.gameRoom, [], []⟩).exec {} [.connect 1 11, .connected 1]).map
      (fun s => (s.conns[1]?, s.newConnections.contains 1, s.roomHeap.size)) =
      some (some { cidHashVal := 11, connectionEstablished := true }, true, 0) := by decide +kernel
  obtain ⟨t, whole, sameEnd⟩ := Machine.exec_observe shownEnd
  obtain ⟨s, run, sameStart⟩ := Machine.exec_observe shownStart
  simp only [Prod.mk.injEq] at sameStart
  obtain ⟨found, listed, empty⟩ := sameStart
  obtain ⟨_, first, step⟩ := whole.snoc_inv
  cases run.unique first
  obtain ⟨r, live, seated⟩ := Option.map_eq_some_iff.mp sameEnd
  have none_live : ∀ (p : Nat) (r : Room), s.roomHeap[p]? ≠ some r :=
    fun p r live => OrderedMap.size_zero_iff.mp empty p (OrderedMap.mem_of_lookup live)
  obtain ⟨base, requests⟩ := requests_of_serialize found rfl listed {}
    ⟨⟨by decide, by decide, by decide, by decide⟩, by decide, by decide, by simp⟩
  have places : Places s t 1 { cidHashVal := 11, connectionEstablished := true } { base } 0 r :=
    ⟨live, TreeMap.mem_iff_contains.mpr seated, fun r live => absurd live (none_live 0 r)⟩
  exact ⟨s, t, r, run, step, live, (placed_config_iff run step requests places).mpr
    ⟨rfl, rfl, fun p _ r _ live => absurd live (none_live p r)⟩⟩

end Gearsdk.Roomserver
