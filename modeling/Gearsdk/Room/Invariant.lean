import Gearsdk.Room.Operations
import Gearsdk.Transition

/-! Every operation on a room has one of the listed outcomes, and every outcome
keeps the invariant. -/
namespace Gearsdk.Room
open Std

variable {r r' : Room} {q : QconnIo} {pid : Qstring} {prev : Nat}
  {player : Player} {seat : DisconnectedPlayer}

/-! ### What stays the same -/

section
variable (r : Room) (q : QconnIo) (pid : Qstring) (prev : Nat)

theorem prepared_eq : r.prepared prev = { r with
    disconnectedPlayers := (r.prepared prev).disconnectedPlayers
    allocatedPlayers := (r.prepared prev).allocatedPlayers } := by
  simp only [prepared]
  cases r.resumedSeat prev <;> rfl

theorem occupied_eq : r.occupied q pid prev = { r with
    playermap := r.playermap.insert q.cidHashVal (r.entrant q pid prev)
    disconnectedPlayers := (r.prepared prev).disconnectedPlayers
    allocatedPlayers := (r.prepared prev).allocatedPlayers } := by
  simp only [occupied]
  rw [prepared_eq]

@[simp] theorem occupied_playermap :
    (r.occupied q pid prev).playermap = r.playermap.insert q.cidHashVal (r.entrant q pid prev) := by
  rw [occupied_eq]

@[simp] theorem occupied_state : (r.occupied q pid prev).state = r.state := by rw [occupied_eq]

@[simp] theorem occupied_roomConfig : (r.occupied q pid prev).roomConfig = r.roomConfig := by
  rw [occupied_eq]

@[simp] theorem occupied_roomId : (r.occupied q pid prev).roomId = r.roomId := by rw [occupied_eq]

@[simp] theorem occupied_roomClass : (r.occupied q pid prev).roomClass = r.roomClass := by
  rw [occupied_eq]

@[simp] theorem occupied_scheduler : (r.occupied q pid prev).scheduler = r.scheduler := by
  rw [occupied_eq]

@[simp] theorem occupied_countDownTimer :
    (r.occupied q pid prev).countDownTimer = r.countDownTimer := by
  rw [occupied_eq]

@[simp] theorem occupied_disconnectedPlayers :
    (r.occupied q pid prev).disconnectedPlayers = (r.prepared prev).disconnectedPlayers := by
  rw [occupied_eq]

@[simp] theorem entrant_qconnection : (r.entrant q pid prev).qconnection = q := by
  simp only [entrant]
  cases r.resumedSeat prev <;> rfl

end

/-! ### Seats -/

theorem absent_of_accepts (accepted : r.accepts q.cidHashVal prev = true) :
    q.cidHashVal ∉ r.playermap := by
  simp only [accepts, Bool.and_eq_true, Bool.not_eq_true'] at accepted
  intro member
  rw [TreeMap.mem_iff_contains, accepted.1.1.1] at member
  contradiction

theorem room_of_accepts (accepted : r.accepts q.cidHashVal prev = true) :
    r.getPlaymapCount < r.roomConfig.maxPlayers := by
  simp only [accepts, Bool.and_eq_true, decide_eq_true_eq] at accepted
  exact accepted.1.2

theorem getPlaymapCount_occupied (pid : Qstring) (prev : Nat)
    (absent : q.cidHashVal ∉ r.playermap) :
    (r.occupied q pid prev).getPlaymapCount = r.getPlaymapCount + 1 := by
  simp [getPlaymapCount, OrderedMap.size_insert_new _ _ absent]

theorem getPlaymapCount_vacated (found : r.playermap[q.cidHashVal]? = some player) :
    (r.vacated q).getPlaymapCount = r.getPlaymapCount - 1 := by
  have shrinks := OrderedMap.size_erase_present (OrderedMap.mem_of_lookup found)
  simp only [getPlaymapCount, vacated]
  omega

theorem seats_vacated (found : r.playermap[q.cidHashVal]? = some player) :
    r.seats.Perm ((player.ptr, player.pid) :: (r.vacated q).seats) := by
  have listed := ((OrderedMap.toList_erase_present found).map Prod.snd).map fun player : Player =>
    (player.ptr, player.pid)
  exact listed.append_right _

theorem seats_addToDisconnectedPlayers (r : Room) (player : Player) :
    (r.addToDisconnectedPlayers player).seats.Perm ((player.ptr, player.pid) :: r.seats) := by
  simp only [seats, addToDisconnectedPlayers, List.map_append, List.map_cons, List.map_nil]
  rw [← List.append_assoc]
  exact List.perm_append_singleton _ _

theorem seats_removeFromDisconnectedPlayers
    (kept : r.findInDisconnectedPlayers cidHash = some seat) :
    r.seats.Perm ((seat.playerPtr, seat.pid) :: (r.removeFromDisconnectedPlayers cidHash).seats) := by
  have named := List.find?_some kept
  obtain ⟨before, after, split, others⟩ := List.find?_eq_some_iff_append.mp kept |>.2
  have removed : (r.removeFromDisconnectedPlayers cidHash).disconnectedPlayers = before ++
      after := by
    have first : (seat :: after).eraseP (fun other => decide (other.hash = cidHash)) = after :=
      List.eraseP_cons_of_pos named
    simp only [removeFromDisconnectedPlayers, split]
    rw [List.eraseP_append_right _ (by simpa using others), first]
  have samePlayers : (r.removeFromDisconnectedPlayers cidHash).players = r.players := rfl
  simp only [seats]
  rw [removed, samePlayers, split]
  simp only [List.map_append, List.map_cons]
  rw [← List.append_assoc, ← List.append_assoc]
  exact List.perm_middle

theorem removeFromDisconnectedPlayers_unknown
    (unknown : r.findInDisconnectedPlayers cidHash = none) :
    r.removeFromDisconnectedPlayers cidHash = r := by
  have others : ∀ seat ∈ r.disconnectedPlayers, ¬ decide (seat.hash = cidHash) = true := by
    simpa [findInDisconnectedPlayers, List.find?_eq_none] using unknown
  simp only [removeFromDisconnectedPlayers]
  rw [List.eraseP_of_forall_not others]

theorem seats_occupied_resumed (pid : Qstring) (absent : q.cidHashVal ∉ r.playermap)
    (resumed : r.resumedSeat prev = some seat) :
    (r.occupied q pid prev).seats.Perm r.seats := by
  have kept : r.findInDisconnectedPlayers prev = some seat := by
    simp only [resumedSeat] at resumed
    split at resumed
    · exact resumed
    · contradiction
  have seated := ((OrderedMap.toList_insert_new r.playermap (r.entrant q pid prev) absent).map
    Prod.snd).map fun player : Player => (player.ptr, player.pid)
  have owner : ((r.entrant q pid prev).ptr, (r.entrant q pid prev).pid) =
      (seat.playerPtr, seat.pid) := by
    simp [entrant, resumed]
  refine List.Perm.trans ?_ (seats_removeFromDisconnectedPlayers kept).symm
  rw [← owner]
  have sameKept : (r.occupied q pid prev).disconnectedPlayers =
      (r.removeFromDisconnectedPlayers prev).disconnectedPlayers := by
    simp [prepared, resumed]
  simp only [seats, players]
  rw [occupied_playermap, sameKept]
  exact seated.append_right _

theorem seats_occupied_new (pid : Qstring) (absent : q.cidHashVal ∉ r.playermap)
    (resumed : r.resumedSeat prev = none) :
    (r.occupied q pid prev).seats.Perm ((r.allocatedPlayers, pid) :: r.seats) := by
  have seated := ((OrderedMap.toList_insert_new r.playermap (r.entrant q pid prev) absent).map
    Prod.snd).map fun player : Player => (player.ptr, player.pid)
  have owner : ((r.entrant q pid prev).ptr, (r.entrant q pid prev).pid) =
      (r.allocatedPlayers, pid) := by
    simp [entrant, resumed]
  rw [← owner]
  have sameKept : (r.occupied q pid prev).disconnectedPlayers = r.disconnectedPlayers := by
    simp [prepared, resumed]
  simp only [seats, players]
  rw [occupied_playermap, sameKept]
  exact seated.append_right _

/-! ### The outcome of each operation -/

theorem change_tryAdd (ready : r.state ≠ .roomUninitialised) (q : QconnIo) (pid : Qstring)
    (prev : Nat) :
    Change r (.tryAdd q pid prev) (r.apply (.tryAdd q pid prev)).1 (r.apply (.tryAdd q pid prev)).2 := by
  simp only [apply]
  cases accepted : r.accepts q.cidHashVal prev with
  | false =>
    obtain ⟨code, _, _, same⟩ := tryAddConnection_rejected pid accepted
    rw [same]
    exact .rejected accepted
  | true =>
    rw [tryAddConnection_accepted accepted]
    have outcome := (r.occupied q pid prev).startOrCountDown_cases
    rw [occupied_state, occupied_roomConfig] at outcome
    obtain ⟨idle, same⟩ | ⟨⟨early, enough⟩, moved⟩ := outcome
    · simp only [same, List.append_nil]
      exact .seated accepted idle
    · have waiting : r.state = .roomWaiting := by
        cases state : r.state <;> simp_all [States.rank]
      obtain ⟨full, same⟩ | ⟨room, same⟩ := moved
      · simp only [same]
        exact .fills accepted waiting enough full
      · simp only [same, List.append_nil]
        exact .countsDown accepted waiting enough room

theorem change_remove (ready : r.state ≠ .roomUninitialised) (q : QconnIo) :
    Change r (.remove q) (r.apply (.remove q)).1 (r.apply (.remove q)).2 := by
  simp only [apply, removeConnection]
  cases found : r.playermap[q.cidHashVal]? with
  | none => exact .forgets found
  | some player =>
    change Change r (.remove q)
      ((r.vacated q).cancelCountDown.1.leaveGameplay q player).1
      (r.sendEventPlayerAddOrRemove player false ++ onroomPlayerRemoved player ::
        ((r.vacated q).cancelCountDown.2 ++ ((r.vacated q).cancelCountDown.1.leaveGameplay q player).2))
    rw [List.append_cons]
    change Change r _ _ (r.farewell player ++ _)
    by_cases started : States.roomStart.rank ≤ r.state.rank
    · have sameCancel : (r.vacated q).cancelCountDown = (r.vacated q, []) := by
        simp only [cancelCountDown]
        rw [if_neg]
        intro early
        exact absurd early.2.1 (Nat.not_lt.mpr started)
      have startedVacated : (r.vacated q).state.rank ≥ States.roomStart.rank := started
      simp only [sameCancel, leaveGameplay, if_pos startedVacated, List.nil_append]
      by_cases few : (r.vacated q).getPlaymapCount < r.roomConfig.minPlayers
      · rw [if_pos (show _ < (r.vacated q).roomConfig.minPlayers from few)]
        cases state : r.state with
        | roomUninitialised => exact absurd state ready
        | roomWaiting => simp [state, States.rank] at started
        | roomStart =>
          have moved : (r.vacated q).setState .roomEnd =
              ({ r.vacated q with state := .roomEnd },
                (r.vacated q).sendEventRoomStartOrEnd false ++ [.observer .roomEventEnd]) := by
            simp only [setState, vacated, state]
            rfl
          simp only [moved, List.append_assoc, List.singleton_append]
          exact .ends found state few
        | roomEnd =>
          have stays : (r.vacated q).setState .roomEnd = (r.vacated q, []) := by
            simp only [setState, vacated, state]
            simp [← state]
          simp only [stays, List.nil_append]
          exact .leavesEnded found state few
      · rw [if_neg (show ¬ _ < (r.vacated q).roomConfig.minPlayers from few)]
        cases known : r.findInDisconnectedPlayers q.cidHashVal with
        | none =>
          have unknown : ((r.vacated q).findInDisconnectedPlayers q.cidHashVal).isNone = true := by
            simpa [findInDisconnectedPlayers, vacated] using known
          simp only [if_pos unknown, List.append_nil]
          exact .keeps found started (Int.not_lt.mp few) known
        | some seat =>
          have listed : ¬ ((r.vacated q).findInDisconnectedPlayers q.cidHashVal).isNone = true := by
            change ¬ (r.findInDisconnectedPlayers q.cidHashVal).isNone = true
            simp [known]
          simp only [if_neg listed, List.append_nil]
          exact .drops found started (Int.not_lt.mp few) (by simp [known])
    · have waiting : r.state = .roomWaiting := by
        cases state : r.state <;> simp_all [States.rank]
      have early : ¬ (r.vacated q).cancelCountDown.1.state.rank ≥ States.roomStart.rank := by
        simp only [cancelCountDown]
        split <;> exact started
      simp only [leaveGameplay, if_neg early, List.append_nil]
      by_cases few : (r.vacated q).getPlaymapCount < r.roomConfig.minPlayers
      · have below : (r.vacated q).isMinCapacityReached = false := by
          simpa [isMinCapacityReached] using few
        have cancelled : (r.vacated q).cancelCountDown =
            ((r.vacated q).cancelCountDownTimer, [.observer .roomEventCountdownCancelled]) := by
          simp only [cancelCountDown]
          rw [if_pos]
          exact ⟨by simp [vacated, waiting, States.rank], Nat.not_le.mp started, by simp [below]⟩
        rw [cancelled]
        exact .cancels found waiting few
      · have reached : (r.vacated q).isMinCapacityReached = true := by
          simpa [isMinCapacityReached] using few
        have same : (r.vacated q).cancelCountDown = (r.vacated q, []) := by
          simp only [cancelCountDown]
          rw [if_neg (by simp [reached])]
        rw [same, List.append_nil]
        exact .leaves found waiting (Int.not_lt.mp few)

theorem change_tick (countdown : r.CountDown) (fires : r.scheduler.isActive ptr = true) :
    Change r (.tick ptr) (r.apply (.tick ptr)).1 (r.apply (.tick ptr)).2 := by
  cases countdown with
  | idle none_listed => simp [QtimerScheduler.isActive, none_listed] at fires
  | running timer listed _ active positive bound waiting =>
    have same : timer.ptr = ptr := by
      simp only [QtimerScheduler.isActive, listed, List.any_cons, List.any_nil, Bool.or_false,
        Bool.and_eq_true, decide_eq_true_eq] at fires
      exact fires.1
    subst same
    have foundTimer : r.scheduler.find timer.ptr = some timer := by
      simp [QtimerScheduler.find, listed]
    have counting : timer.count ≠ -1 := by omega
    have updated : ∀ t : Qtimer, t.ptr = timer.ptr →
        r.scheduler.update t = { r.scheduler with timers := [t] } := by
      intro t named
      simp [QtimerScheduler.update, listed, named]
    simp only [apply, evtimerSchedulerCb, foundTimer]
    rw [updated _ (Qtimer.evtimerCb_ptr timer)]
    by_cases more : 1 < timer.count
    · have ticked : timer.evtimerCb = { timer with count := timer.count - 1 } := by
        have remaining : ¬ timer.count - 1 ≤ 0 := by omega
        simp [Qtimer.evtimerCb, counting, active, remaining]
      have positiveCount : timer.count - 1 > 0 := by omega
      have remains : ¬ timer.finished = true := by simp [active]
      simp only [ticked, countDown, if_pos positiveCount, if_neg remains]
      exact .ticks listed rfl waiting more bound
    · have last : timer.count = 1 := by omega
      have ticked : timer.evtimerCb = { timer with count := 0, finished := true } := by
        simp [Qtimer.evtimerCb, last]
      simp only [ticked, countDown, gt_iff_lt, Int.lt_irrefl, if_false, if_true, setState_fst]
      have destroyed : (({ r.scheduler with timers := [{ timer with count := 0, finished := true }] } :
          QtimerScheduler).destroyTimer timer.ptr).1 = { r.scheduler with timers := [] } := by
        simp [QtimerScheduler.destroyTimer, QtimerScheduler.find]
      rw [destroyed]
      have moves : r.state ≠ .roomStart := by simp [waiting]
      simp only [setState, ne_eq, moves, not_false_eq_true, if_true]
      exact .lastTick listed rfl waiting last

theorem change_of_inv (inv : r.Inv) (allowed : r.allows op = true) :
    Change r op (r.apply op).1 (r.apply op).2 := by
  cases op with
  | tryAdd q pid prev => exact change_tryAdd inv.initialised q pid prev
  | remove q => exact change_remove inv.initialised q
  | tick ptr => exact change_tick inv.countdown allowed
  | message cidHash msg =>
    simp only [apply]
    cases found : r.playermap[cidHash]? with
    | none => exact .ignores found
    | some player => exact .relays found

/-! ### The invariant -/

theorem Seated.occupied (seated : r.Seated) (pid : Qstring) (prev : Nat)
    (absent : q.cidHashVal ∉ r.playermap) :
    (r.occupied q pid prev).Seated := by
  have keyed : ∀ cidHash (player : Player), (r.occupied q pid prev).playermap[cidHash]? =
    some player →
      player.qconnection.cidHashVal = cidHash := by
    intro cidHash player found
    rw [occupied_playermap, OrderedMap.lookup_insert] at found
    split at found
    · cases found
      simpa
    · exact seated.keyed cidHash player found
  cases resumed : r.resumedSeat prev with
  | none =>
    have perm := seats_occupied_new pid absent resumed
    have counted : (r.occupied q pid prev).allocatedPlayers = r.allocatedPlayers + 1 := by
      rw [occupied_eq]
      simp [prepared, resumed]
    refine ⟨keyed, ?_, ?_⟩
    · rw [(perm.map Prod.fst).nodup_iff, List.map_cons, List.nodup_cons]
      refine ⟨fun member => ?_, seated.distinct⟩
      obtain ⟨seat, listed, same⟩ := List.mem_map.mp member
      have older := seated.allocated seat listed
      omega
    · intro seat listed
      rw [counted]
      rcases List.mem_cons.mp (perm.mem_iff.mp listed) with rfl | old
      · exact Nat.lt_succ_self _
      · exact Nat.lt_succ_of_lt (seated.allocated seat old)
  | some kept =>
    have perm := seats_occupied_resumed pid absent resumed
    have counted : (r.occupied q pid prev).allocatedPlayers = r.allocatedPlayers := by
      rw [occupied_eq]
      simp [prepared, resumed, removeFromDisconnectedPlayers]
    refine ⟨keyed, (perm.map Prod.fst).nodup_iff.mpr seated.distinct, fun seat listed => ?_⟩
    rw [counted]
    exact seated.allocated seat (perm.mem_iff.mp listed)

theorem Seated.vacated (seated : r.Seated) (found : r.playermap[q.cidHashVal]? = some player) :
    (r.vacated q).Seated := by
  have perm := seats_vacated found
  have distinct := (perm.map Prod.fst).nodup_iff.mp seated.distinct
  refine ⟨?_, (List.nodup_cons.mp distinct).2, ?_⟩
  · intro cidHash player found
    simp only [Room.vacated, OrderedMap.lookup_erase] at found
    split at found
    · contradiction
    · exact seated.keyed cidHash player found
  · intro seat listed
    exact seated.allocated seat (perm.mem_iff.mpr (List.mem_cons_of_mem _ listed))

theorem Seated.keeps (seated : r.Seated) (found : r.playermap[q.cidHashVal]? = some player) :
    ((r.vacated q).addToDisconnectedPlayers player).Seated := by
  have perm := (seats_addToDisconnectedPlayers (r.vacated q) player).trans (seats_vacated found).symm
  refine ⟨(seated.vacated found).keyed, (perm.map Prod.fst).nodup_iff.mpr seated.distinct, ?_⟩
  intro seat listed
  exact seated.allocated seat (perm.mem_iff.mp listed)

theorem Seated.forgets (seated : r.Seated) (cidHash : Nat) :
    (r.removeFromDisconnectedPlayers cidHash).Seated := by
  cases known : r.findInDisconnectedPlayers cidHash with
  | none =>
    rw [removeFromDisconnectedPlayers_unknown known]
    exact seated
  | some kept =>
    have perm := seats_removeFromDisconnectedPlayers known
    have distinct := (perm.map Prod.fst).nodup_iff.mp seated.distinct
    refine ⟨seated.keyed, (List.nodup_cons.mp distinct).2, fun seat listed => ?_⟩
    exact seated.allocated seat (perm.mem_iff.mpr (List.mem_cons_of_mem _ listed))

/-- Cancelling leaves no timer listed, and a null pointer while waiting. -/
theorem CountDown.cancelled (countdown : r.CountDown) :
    r.cancelCountDownTimer.scheduler.timers = [] ∧
      (r.state = .roomWaiting → r.cancelCountDownTimer.countDownTimer = none) := by
  simp only [cancelCountDownTimer]
  rw [QtimerScheduler.cancelAndDestroyTimer_eq]
  cases countdown with
  | idle none_listed unset =>
    have absent : r.scheduler.isTimerPresentInList r.countDownTimer = false := by
      cases r.countDownTimer <;> simp [QtimerScheduler.isTimerPresentInList, none_listed]
    simpa [absent, none_listed] using unset
  | running timer listed named =>
    simp [named, listed, QtimerScheduler.isTimerPresentInList]

theorem CountDown.restarted_timers (countdown : r.CountDown) : r.countingDown.scheduler.timers =
    [{ ptr := (r.scheduler.cancelAndDestroyTimer r.countDownTimer).1.allocated,
       count := maxCountDown, delay := delayBetweenCountDown }] := by
  have cleared := countdown.cancelled.1
  change (r.scheduler.cancelAndDestroyTimer r.countDownTimer).1.timers = _ at cleared
  change (r.scheduler.cancelAndDestroyTimer r.countDownTimer).1.timers ++ _ = _
  rw [cleared]
  rfl

theorem CountDown.restarted (countdown : r.CountDown) (waiting : r.state = .roomWaiting)
    (enough : r.roomConfig.minPlayers ≤ r.getPlaymapCount) (space : 1 ≤ r.roomConfig.maxPlayers) :
    r.countingDown.CountDown := by
  have inside : (1 : Int) ≤ maxCountDown := by decide
  exact .running _ countdown.restarted_timers rfl rfl inside (Int.le_refl _) waiting enough space

theorem CountDown.idle_of_started (countdown : r.CountDown)
    (started : States.roomStart.rank ≤ r.state.rank) :
    r.scheduler.timers = [] := by
  cases countdown with
  | idle none_listed => exact none_listed
  | running _ _ _ _ _ _ waiting => simp [waiting, States.rank] at started

theorem started_ne_waiting (started : States.roomStart.rank ≤ r.state.rank) :
    r.state ≠ .roomWaiting := by
  intro waiting
  simp [waiting, States.rank] at started

theorem prepared_subset (r : Room) (prev : Nat) :
    (r.prepared prev).disconnectedPlayers ⊆ r.disconnectedPlayers := by
  simp only [prepared]
  cases r.resumedSeat prev with
  | none => exact List.Subset.refl _
  | some _ => exact List.eraseP_subset

theorem Inv.kept_occupied (inv : r.Inv) (prev : Nat)
    (some_kept : (r.prepared prev).disconnectedPlayers ≠ []) :
    States.roomStart.rank ≤ r.state.rank := by
  apply inv.kept
  intro empty
  exact some_kept (List.eq_nil_of_subset_nil (empty ▸ prepared_subset r prev))

/-- A waiting room with players for a countdown keeps its countdown running as
long as enough players remain. -/
theorem CountDown.same_timer (countdown : r.CountDown) (sameConfig : r'.roomConfig = r.roomConfig)
    (sameScheduler : r'.scheduler = r.scheduler)
    (samePointer : r'.countDownTimer = r.countDownTimer) (sameState : r'.state = r.state)
    (enough : r.scheduler.timers ≠ [] → r'.roomConfig.minPlayers ≤ r'.getPlaymapCount) :
    r'.CountDown := by
  cases countdown with
  | idle none_listed unset =>
    exact .idle (by rw [sameScheduler, none_listed]) (by rw [sameState, samePointer]; exact unset)
  | running timer listed named active positive bound waiting _ space =>
    exact .running timer (by rw [sameScheduler, listed]) (by rw [samePointer, named]) active
      positive bound
      (by rw [sameState, waiting]) (enough (by simp [listed])) (by rw [sameConfig]; exact space)

theorem Inv.enough (inv : r.Inv) (listed : r.scheduler.timers ≠ []) :
    r.roomConfig.minPlayers ≤ r.getPlaymapCount := by
  cases inv.countdown with
  | idle none_listed => exact absurd none_listed listed
  | running _ _ _ _ _ _ _ enough => exact enough

theorem CountDown.fills (countdown : r.CountDown) (q : QconnIo) (pid : Qstring) (prev : Nat)
    (enough : r.roomConfig.minPlayers ≤ (r.occupied q pid prev).getPlaymapCount) :
    (r.occupied q pid prev).CountDown :=
  countdown.same_timer (by simp) (by simp) (by simp) (by simp) fun _ => by simpa using enough

/-- Every outcome of an operation keeps the invariant. -/
theorem Inv.capacity_vacated (inv : r.Inv) (found : r.playermap[q.cidHashVal]? = some player) :
    (r.vacated q).getPlaymapCount ≤ max r.roomConfig.maxPlayers 0 := by
  have shrinks := getPlaymapCount_vacated found
  have capacity := inv.capacity
  omega

/-- A room that waits does not get fuller by a player who leaves. -/
theorem Inv.vacancy_vacated (inv : r.Inv) (found : r.playermap[q.cidHashVal]? = some player)
    (waiting : r.state = .roomWaiting) (ordered : r.roomConfig.minPlayers ≤ r.roomConfig.maxPlayers)
    (positive : 1 ≤ r.roomConfig.maxPlayers) :
    (r.vacated q).getPlaymapCount < r.roomConfig.maxPlayers := by
  have shrinks := getPlaymapCount_vacated found
  have vacancy := inv.vacancy waiting ordered positive
  omega

theorem Change.inv (inv : r.Inv) (change : Change r op r' calls) : r'.Inv := by
  cases change with
  | rejected | relays | ignores => exact inv
  | @seated q pid prev accepted idle =>
    have absent := absent_of_accepts accepted
    have grows := getPlaymapCount_occupied pid prev absent
    have room := room_of_accepts accepted
    refine ⟨by simpa using inv.initialised, inv.seated.occupied pid prev absent, ?_, ?_, ?_, ?_⟩
    · rw [grows, occupied_roomConfig]
      omega
    · intro some_kept
      simpa using inv.kept_occupied prev (by simpa using some_kept)
    · apply inv.countdown.same_timer <;> try simp
      intro listed
      have enough := inv.enough listed
      omega
    · intro waiting ordered positive
      rw [occupied_state] at waiting
      rw [occupied_roomConfig] at ordered ⊢
      simp only [waiting, States.rank] at idle
      omega
  | @fills q pid prev accepted waiting enough full =>
    have absent := absent_of_accepts accepted
    have stopped := (inv.countdown.fills q pid prev enough).cancelled
    have seated := inv.seated.occupied pid prev absent
    refine ⟨by simp, ⟨seated.keyed, seated.distinct, seated.allocated⟩, ?_, fun _ => Nat.le_refl _,
      .idle stopped.1 (by simp), by simp⟩
    change (r.occupied q pid prev).getPlaymapCount ≤ max (r.occupied q pid prev).roomConfig.maxPlayers 0
    rw [occupied_roomConfig]
    omega
  | @countsDown q pid prev accepted waiting enough room =>
    have absent := absent_of_accepts accepted
    have grows := getPlaymapCount_occupied pid prev absent
    have space := room_of_accepts accepted
    have countdown := inv.countdown.fills q pid prev enough
    have seated := inv.seated.occupied pid prev absent
    have sameConfig : (r.occupied q pid prev).countingDown.roomConfig = r.roomConfig :=
      occupied_roomConfig r q pid prev
    have sameCount : (r.occupied q pid prev).countingDown.getPlaymapCount =
      (r.occupied q pid prev).getPlaymapCount := rfl
    refine ⟨?_, ⟨seated.keyed, seated.distinct, seated.allocated⟩, ?_, ?_,
      countdown.restarted (by simpa using waiting) (by simpa using enough) ?_, ?_⟩
    · change (r.occupied q pid prev).state ≠ _
      simpa using inv.initialised
    · rw [sameConfig, sameCount]
      omega
    · intro some_kept
      change _ ≤ (r.occupied q pid prev).state.rank
      rw [occupied_state]
      apply inv.kept_occupied prev
      intro empty
      exact some_kept ((occupied_disconnectedPlayers r q pid prev).trans empty)
    · rw [occupied_roomConfig]
      have seats : 0 ≤ r.getPlaymapCount := Int.natCast_nonneg _
      omega
    · intro _ _ _
      rw [sameConfig, sameCount]
      omega
  | @forgets q absent =>
    refine ⟨inv.initialised, inv.seated.forgets _, inv.capacity, ?_, ?_, inv.vacancy⟩
    · intro some_kept
      apply inv.kept
      intro empty
      simp [removeFromDisconnectedPlayers, empty] at some_kept
    · exact inv.countdown.same_timer rfl rfl rfl rfl inv.enough
  | @leaves q player found waiting enough =>
    exact ⟨inv.initialised, inv.seated.vacated found, inv.capacity_vacated found, inv.kept,
      inv.countdown.same_timer rfl rfl rfl rfl fun _ => enough, fun _ =>
        inv.vacancy_vacated found waiting⟩
  | @cancels q player found waiting few =>
    have stopped := inv.countdown.cancelled
    have seated := inv.seated.vacated found
    exact ⟨inv.initialised, ⟨seated.keyed, seated.distinct, seated.allocated⟩,
      inv.capacity_vacated found, inv.kept,
      .idle stopped.1 stopped.2, fun _ => inv.vacancy_vacated found waiting⟩
  | @ends q player found started few =>
    have seated := inv.seated.vacated found
    have idle := inv.countdown.idle_of_started (by simp [started])
    exact ⟨by simp, ⟨seated.keyed, seated.distinct, seated.allocated⟩, inv.capacity_vacated found,
      fun _ => Nat.le_succ _, .idle idle (by simp), by simp⟩
  | @leavesEnded q player found ended few =>
    refine ⟨inv.initialised, inv.seated.vacated found, inv.capacity_vacated found, inv.kept,
      .idle (inv.countdown.idle_of_started (by simp [ended, States.rank])) ?_, ?_⟩
    · intro waiting
      simp [vacated, ended] at waiting
    · intro waiting
      simp [vacated, ended] at waiting
  | @keeps q player found started enough fresh =>
    have later := started_ne_waiting started
    exact ⟨inv.initialised, inv.seated.keeps found, inv.capacity_vacated found, fun _ => started,
      .idle (inv.countdown.idle_of_started started) fun waiting => absurd waiting later,
      fun waiting => absurd waiting later⟩
  | @drops q player found started enough known =>
    have later := started_ne_waiting started
    exact ⟨inv.initialised, inv.seated.vacated found, inv.capacity_vacated found, inv.kept,
      .idle (inv.countdown.idle_of_started started) fun waiting => absurd waiting later,
      fun waiting => absurd waiting later⟩
  | @ticks timer ptr listed named waiting more bound =>
    have enough := inv.enough (by simp [listed])
    refine ⟨inv.initialised, ⟨inv.seated.keyed, inv.seated.distinct, inv.seated.allocated⟩,
      inv.capacity,
      inv.kept, ?_, inv.vacancy⟩
    cases inv.countdown with
    | idle none_listed => simp [none_listed] at listed
    | running other listed' named' active positive _ _ _ space =>
      obtain rfl : timer = other := by simpa [listed] using listed'
      refine .running { timer with
        count := timer.count - 1 } rfl named' active ?_ ?_ waiting enough space
      · change 1 ≤ timer.count - 1
        omega
      · change timer.count - 1 ≤ maxCountDown
        omega
  | @lastTick timer ptr listed named waiting last =>
    exact ⟨by simp, ⟨inv.seated.keyed, inv.seated.distinct, inv.seated.allocated⟩, inv.capacity,
      fun _ => Nat.le_refl _, .idle rfl (by simp), by simp⟩

theorem create_eq (roomClass : RoomClass) (roomId creationTime : Int) (roomConfig : RoomConfig) :
    create roomClass roomId creationTime roomConfig =
      ({ roomClass, roomId, creationTime, roomConfig, state := .roomWaiting },
        [.observer .roomEventCreate]) := by
  rfl

theorem create_inv (roomClass : RoomClass) (roomId creationTime : Int) (roomConfig : RoomConfig) :
    (create roomClass roomId creationTime roomConfig).1.Inv := by
  rw [create_eq]
  refine ⟨by simp, ⟨?_, ?_, ?_⟩, ?_, by simp, .idle rfl fun _ => rfl, ?_⟩
  · intro cidHash player found
    simp at found
  · simp [seats, players]
  · simp [seats, players]
  · exact Int.le_max_right _ _
  · intro _ _ positive
    exact positive

/-! ### The life of one room -/

/-- A room from its construction on, with every call it has made. The joins and
leaves of any client and the ticks of its own timers come in any order. -/
def machine (roomClass : RoomClass) (roomId creationTime : Int) (roomConfig : RoomConfig) :
    Transition.Machine (Room × List RoomCall) Op Empty where
  init := create roomClass roomId creationTime roomConfig
  enabled s op := s.1.allows op = true
  next s op := .ok ((s.1.apply op).1, s.2 ++ (s.1.apply op).2)

section
variable {roomClass : RoomClass} {roomId creationTime : Int} {roomConfig : RoomConfig}
  {s t : Room × List RoomCall}

instance (op : Op) : Decidable ((machine roomClass roomId creationTime roomConfig).enabled s op) :=
  inferInstanceAs (Decidable (_ = true))

theorem step_change (inv : s.1.Inv)
    (step : (machine roomClass roomId creationTime roomConfig).Step s op t) :
    ∃ calls, Change s.1 op t.1 calls ∧ t.2 = s.2 ++ calls := by
  obtain ⟨allowed, moved⟩ := step
  cases Except.ok.inj moved
  exact ⟨_, change_of_inv inv allowed, rfl⟩

theorem step_inv (inv : s.1.Inv)
    (step : (machine roomClass roomId creationTime roomConfig).Step s op t) :
    t.1.Inv := by
  obtain ⟨_, change, _⟩ := step_change inv step
  exact change.inv inv

theorem run_inv (run : (machine roomClass roomId creationTime roomConfig).Run ops s) : s.1.Inv :=
  Transition.Machine.Reaches.invariant (P := fun s => s.1.Inv) (fun inv step => step_inv inv step) run
    (create_inv roomClass roomId creationTime roomConfig)

end

theorem Change.sameConfig (change : Change r op r' calls) : r'.roomConfig = r.roomConfig := by
  cases change with
  | @seated q pid prev => exact occupied_roomConfig r q pid prev
  | @fills q pid prev => exact occupied_roomConfig r q pid prev
  | @countsDown q pid prev => exact occupied_roomConfig r q pid prev
  | _ => rfl

theorem Change.sameRoomId (change : Change r op r' calls) : r'.roomId = r.roomId := by
  cases change with
  | @seated q pid prev => exact occupied_roomId r q pid prev
  | @fills q pid prev => exact occupied_roomId r q pid prev
  | @countsDown q pid prev => exact occupied_roomId r q pid prev
  | _ => rfl

theorem Change.sameRoomClass (change : Change r op r' calls) : r'.roomClass = r.roomClass := by
  cases change with
  | @seated q pid prev => exact occupied_roomClass r q pid prev
  | @fills q pid prev => exact occupied_roomClass r q pid prev
  | @countsDown q pid prev => exact occupied_roomClass r q pid prev
  | _ => rfl

/-- The state stays, or moves one step forward. -/
theorem Change.forward (change : Change r op r' calls) :
    r'.state = r.state ∨ (r.state = .roomWaiting ∧ r'.state = .roomStart) ∨
      (r.state = .roomStart ∧ r'.state = .roomEnd) := by
  cases change with
  | @seated q pid prev => exact .inl (occupied_state r q pid prev)
  | @countsDown q pid prev => exact .inl (occupied_state r q pid prev)
  | fills _ waiting => exact .inr (.inl ⟨waiting, rfl⟩)
  | lastTick _ _ waiting => exact .inr (.inl ⟨waiting, rfl⟩)
  | ends _ started => exact .inr (.inr ⟨started, rfl⟩)
  | _ => exact .inl rfl

theorem Change.rank_le (change : Change r op r' calls) : r.state.rank ≤ r'.state.rank := by
  obtain same | ⟨waiting, started⟩ | ⟨started, ended⟩ := change.forward
  · rw [same]
  · simp [waiting, started, States.rank]
  · simp [started, ended, States.rank]

end Gearsdk.Room
