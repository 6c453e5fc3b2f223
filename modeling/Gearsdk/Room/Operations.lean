import Gearsdk.Room

/-! What one operation does to a room. `Change` lists every outcome with the
condition under which it happens, and `Inv` is what all of them preserve. -/
namespace Gearsdk.Room
open Std

inductive Op where
  | tryAdd (qconnection : QconnIo) (pid : Qstring) (prevCidHashVal : Nat)
  | remove (qconnection : QconnIo)
  | tick (timer : Nat)
  | message (cidHash : Nat) (msg : Qstring)

def apply (r : Room) : Op → Room × List RoomCall
  | .tryAdd qconnection pid prevCidHashVal =>
      let added := r.tryAddConnection qconnection pid prevCidHashVal
      (added.room, added.calls)
  | .remove qconnection =>
      let (r, calls, _) := r.removeConnection qconnection
      (r, calls)
  | .tick timer => r.evtimerSchedulerCb timer
  | .message cidHash msg =>
      match r.playermap[cidHash]? with
      | some p => (r, r.passMessageToRoom p msg)
      | none => (r, [])

/-- Only active timers fire. -/
def allows (r : Room) : Op → Bool
  | .tick timer => r.scheduler.isActive timer
  | .tryAdd _ _ _ | .remove _ | .message _ _ => true

/-! ### Seats -/

/-- The seat that a request with this previous hash resumes. -/
def resumedSeat (r : Room) (prevCidHashVal : Nat) : Option DisconnectedPlayer :=
  if prevCidHashVal > 0 then r.findInDisconnectedPlayers prevCidHashVal else none

/-- The checks of `try_add_connection`, all passed. -/
def accepts (r : Room) (cidHash prevCidHashVal : Nat) : Bool :=
  !r.playermap.contains cidHash &&
  ((r.resumedSeat prevCidHashVal).isSome || decide (r.state.rank ≤ States.roomWaiting.rank) ||
    r.roomConfig.allowJoinAfterStart) &&
  decide (r.getPlaymapCount < r.roomConfig.maxPlayers) &&
  ((r.resumedSeat prevCidHashVal).isNone || r.canAllowReconnection cidHash)

def entrant (r : Room) (qconnection : QconnIo) (pid : Qstring) (prevCidHashVal : Nat) : Player :=
  match r.resumedSeat prevCidHashVal with
  | some seat => { ptr := seat.playerPtr, qconnection, pid := seat.pid }
  | none => { ptr := r.allocatedPlayers, qconnection, pid }

/-- The kept seat is given up, or a player object is allocated. -/
def prepared (r : Room) (prevCidHashVal : Nat) : Room :=
  match r.resumedSeat prevCidHashVal with
  | some _ => r.removeFromDisconnectedPlayers prevCidHashVal
  | none => { r with allocatedPlayers := r.allocatedPlayers + 1 }

/-- The room with the entrant seated, before it starts or counts down. -/
def occupied (r : Room) (qconnection : QconnIo) (pid : Qstring) (prevCidHashVal : Nat) : Room :=
  let r' := r.prepared prevCidHashVal
  { r' with
    playermap := r'.playermap.insert qconnection.cidHashVal (r.entrant qconnection pid prevCidHashVal) }

def welcome (r : Room) (qconnection : QconnIo) (pid : Qstring) (prevCidHashVal : Nat) :
    List RoomCall :=
  let player := r.entrant qconnection pid prevCidHashVal
  (r.occupied qconnection pid prevCidHashVal).sendEventPlayerAddOrRemove player true ++
    [onroomPlayerAdded player]

/-- The room without the seat of this connection, before anything follows. -/
def vacated (r : Room) (qconnection : QconnIo) : Room :=
  { r with playermap := r.playermap.erase qconnection.cidHashVal }

@[simp] theorem vacated_roomConfig (r : Room) (q : QconnIo) :
    (r.vacated q).roomConfig = r.roomConfig := rfl

def farewell (r : Room) (player : Player) : List RoomCall :=
  r.sendEventPlayerAddOrRemove player false ++ [onroomPlayerRemoved player]

section
variable {r : Room} {q : QconnIo} {pid : Qstring} {prev : Nat}

theorem tryAddConnection_accepted (accepted : r.accepts q.cidHashVal prev = true) :
    r.tryAddConnection q pid prev =
      let started := (r.occupied q pid prev).startOrCountDown
      ⟨started.1, r.welcome q pid prev ++ started.2, started.1.getPlaymapCount,
        (r.resumedSeat prev).isSome⟩ := by
  simp only [accepts, Bool.and_eq_true, Bool.or_eq_true, Bool.not_eq_true', decide_eq_true_eq,
    Option.isNone_iff_eq_none] at accepted
  obtain ⟨⟨⟨absent, allowed⟩, room⟩, reconnection⟩ := accepted
  simp only [tryAddConnection, welcome, occupied, entrant, prepared]
  rw [if_neg (by simp [absent])]
  simp only [show (if prev > 0 then r.findInDisconnectedPlayers prev else none) =
    r.resumedSeat prev from rfl]
  cases resumed : r.resumedSeat prev with
  | none =>
    simp only [resumed, Option.isSome_none, Bool.false_eq_true, false_or] at allowed
    have open_ : (decide (r.state.rank > States.roomWaiting.rank) &&
        !r.roomConfig.allowJoinAfterStart) = false := by
      rcases allowed with waiting | allow
      · simp [Nat.not_lt.mpr waiting]
      · simp [allow]
    simp only [Option.isSome_none, Bool.not_false, Bool.true_and, Bool.false_and, open_,
      Bool.false_eq_true, if_false, if_neg (Int.not_le.mpr room)]
    rfl
  | some seat =>
    have allow : r.canAllowReconnection q.cidHashVal = true := by simpa [resumed] using reconnection
    simp only [Option.isSome_some, Bool.not_true, Bool.false_and, Bool.true_and, allow,
      Bool.false_eq_true, if_false, if_neg (Int.not_le.mpr room)]
    rfl

/-- A rejected request leaves no trace in the room. -/
theorem tryAddConnection_rejected (pid : Qstring) (rejected : r.accepts q.cidHashVal prev = false) :
    ∃ code < 0, (code = -2 ↔ r.playermap.contains q.cidHashVal = true) ∧
      r.tryAddConnection q pid prev = ⟨r, [], code, false⟩ := by
  simp only [tryAddConnection]
  simp only [show (if prev > 0 then r.findInDisconnectedPlayers prev else none) =
    r.resumedSeat prev from rfl]
  cases present : r.playermap.contains q.cidHashVal with
  | true => exact ⟨-2, by decide, by simp, rfl⟩
  | false =>
    simp only [accepts, present, Bool.not_false, Bool.true_and] at rejected
    by_cases closed : (!(r.resumedSeat prev).isSome && decide (r.state.rank > States.roomWaiting.rank) &&
        !r.roomConfig.allowJoinAfterStart) = true
    · exact ⟨-3, by decide, by simp, by simp only [Bool.false_eq_true, if_false, if_pos closed]⟩
    by_cases full : r.getPlaymapCount ≥ r.roomConfig.maxPlayers
    · exact ⟨-4, by decide, by simp, by simp only [Bool.false_eq_true, if_false, if_neg closed,
        if_pos full]⟩
    · have barred : ((r.resumedSeat prev).isSome && !r.canAllowReconnection q.cidHashVal) =
          true := by
        cases resumed : r.resumedSeat prev <;> cases allow : r.canAllowReconnection q.cidHashVal <;>
          simp_all
      exact ⟨-5, by decide, by simp,
        by simp only [Bool.false_eq_true, if_false, if_neg closed, if_neg full, if_pos barred]⟩

end

/-! ### Outcomes -/

@[simp] theorem setState_fst (r : Room) (state : States) :
    (r.setState state).1 = { r with state } := by
  simp only [setState]
  split <;> rfl

section
variable (r : Room)

@[simp] theorem cancelCountDownTimer_playermap : r.cancelCountDownTimer.playermap = r.playermap :=
  rfl

@[simp] theorem cancelCountDownTimer_disconnectedPlayers :
    r.cancelCountDownTimer.disconnectedPlayers = r.disconnectedPlayers := rfl

@[simp] theorem cancelCountDownTimer_state : r.cancelCountDownTimer.state = r.state := rfl

@[simp] theorem cancelCountDownTimer_roomConfig :
    r.cancelCountDownTimer.roomConfig = r.roomConfig := rfl

@[simp] theorem cancelCountDownTimer_allocatedPlayers :
    r.cancelCountDownTimer.allocatedPlayers = r.allocatedPlayers := rfl

/-- The announcements of a start. -/
def starting : List RoomCall :=
  .onroomPreStart :: (r.sendEventRoomStartOrEnd true ++ [.observer .roomEventStart])

/-- The announcements of an end, with the remaining players kicked. -/
def ending : List RoomCall :=
  r.sendEventRoomStartOrEnd false ++ .observer .roomEventEnd :: r.kickAllExcept none

/-- The room with a fresh countdown, after the listed one is cancelled. -/
def countingDown : Room :=
  let (scheduler, _) := r.scheduler.cancelAndDestroyTimer r.countDownTimer
  let (scheduler, timer) := scheduler.scheduleCountTimer delayBetweenCountDown maxCountDown
  { r with scheduler, countDownTimer := some timer }

@[simp] theorem countingDown_playermap : r.countingDown.playermap = r.playermap := rfl

@[simp] theorem countingDown_disconnectedPlayers :
    r.countingDown.disconnectedPlayers = r.disconnectedPlayers := rfl

@[simp] theorem countingDown_state : r.countingDown.state = r.state := rfl

@[simp] theorem countingDown_roomConfig : r.countingDown.roomConfig = r.roomConfig := rfl

theorem startOrCountDown_cases :
    (States.roomStart.rank ≤ r.state.rank ∨ r.getPlaymapCount < r.roomConfig.minPlayers) ∧
        r.startOrCountDown = (r, []) ∨
    (r.state.rank < States.roomStart.rank ∧ r.roomConfig.minPlayers ≤ r.getPlaymapCount) ∧
      (r.getPlaymapCount = r.roomConfig.maxPlayers ∧
          r.startOrCountDown = ({ r.cancelCountDownTimer with state := .roomStart }, r.starting) ∨
        r.getPlaymapCount ≠ r.roomConfig.maxPlayers ∧
          r.startOrCountDown = (r.countingDown, [])) := by
  simp only [startOrCountDown]
  by_cases ready : r.isMinCapacityReached = true ∧ r.state.rank < States.roomStart.rank
  · rw [if_pos ready]
    have enough : r.roomConfig.minPlayers ≤ r.getPlaymapCount := by
      simpa [isMinCapacityReached] using ready.1
    refine .inr ⟨⟨ready.2, enough⟩, ?_⟩
    by_cases full : r.getPlaymapCount = r.roomConfig.maxPlayers
    · rw [if_pos full]
      have moves : r.state ≠ .roomStart := by
        intro same
        simp [same] at ready
      exact .inl ⟨full, by simp [setState, moves, onStateChange, starting]; rfl⟩
    · rw [if_neg full]
      exact .inr ⟨full, rfl⟩
  · rw [if_neg ready]
    refine .inl ⟨?_, rfl⟩
    simp only [isMinCapacityReached, decide_eq_true_eq, not_and, Nat.not_lt] at ready
    by_cases enough : r.roomConfig.minPlayers ≤ r.getPlaymapCount
    · exact .inl (ready enough)
    · exact .inr (Int.not_le.mp enough)

end

/-- Every outcome of an operation on a room that satisfies `Inv`. -/
inductive Change (r : Room) : Op → Room → List RoomCall → Prop where
  | rejected {q : QconnIo} {pid : Qstring} {prev : Nat}
      (closed : r.accepts q.cidHashVal prev = false) :
      Change r (.tryAdd q pid prev) r []
  | seated {q : QconnIo} {pid : Qstring} {prev : Nat}
      (accepted : r.accepts q.cidHashVal prev = true)
      (idle : States.roomStart.rank ≤ r.state.rank ∨
        (r.occupied q pid prev).getPlaymapCount < r.roomConfig.minPlayers) :
      Change r (.tryAdd q pid prev) (r.occupied q pid prev) (r.welcome q pid prev)
  | fills {q : QconnIo} {pid : Qstring} {prev : Nat} (accepted : r.accepts q.cidHashVal prev = true)
      (waiting : r.state = .roomWaiting)
      (enough : r.roomConfig.minPlayers ≤ (r.occupied q pid prev).getPlaymapCount)
      (full : (r.occupied q pid prev).getPlaymapCount = r.roomConfig.maxPlayers) :
      Change r (.tryAdd q pid prev)
        { (r.occupied q pid prev).cancelCountDownTimer with state := .roomStart }
        (r.welcome q pid prev ++ (r.occupied q pid prev).starting)
  | countsDown {q : QconnIo} {pid : Qstring} {prev : Nat}
      (accepted : r.accepts q.cidHashVal prev = true)
      (waiting : r.state = .roomWaiting)
      (enough : r.roomConfig.minPlayers ≤ (r.occupied q pid prev).getPlaymapCount)
      (room : (r.occupied q pid prev).getPlaymapCount ≠ r.roomConfig.maxPlayers) :
      Change r (.tryAdd q pid prev) (r.occupied q pid prev).countingDown (r.welcome q pid prev)
  | forgets {q : QconnIo} (absent : r.playermap[q.cidHashVal]? = none) :
      Change r (.remove q) (r.removeFromDisconnectedPlayers q.cidHashVal) []
  | leaves {q : QconnIo} {player : Player} (found : r.playermap[q.cidHashVal]? = some player)
      (waiting : r.state = .roomWaiting)
      (enough : r.roomConfig.minPlayers ≤ (r.vacated q).getPlaymapCount) :
      Change r (.remove q) (r.vacated q) (r.farewell player)
  | cancels {q : QconnIo} {player : Player} (found : r.playermap[q.cidHashVal]? = some player)
      (waiting : r.state = .roomWaiting)
      (few : (r.vacated q).getPlaymapCount < r.roomConfig.minPlayers) :
      Change r (.remove q) (r.vacated q).cancelCountDownTimer
        (r.farewell player ++ [.observer .roomEventCountdownCancelled])
  | ends {q : QconnIo} {player : Player} (found : r.playermap[q.cidHashVal]? = some player)
      (started : r.state = .roomStart)
      (few : (r.vacated q).getPlaymapCount < r.roomConfig.minPlayers) :
      Change r (.remove q) { r.vacated q with state := .roomEnd }
        (r.farewell player ++ (r.vacated q).ending)
  | leavesEnded {q : QconnIo} {player : Player} (found : r.playermap[q.cidHashVal]? = some player)
      (ended : r.state = .roomEnd)
      (few : (r.vacated q).getPlaymapCount < r.roomConfig.minPlayers) :
      Change r (.remove q) (r.vacated q) (r.farewell player ++ (r.vacated q).kickAllExcept none)
  | keeps {q : QconnIo} {player : Player} (found : r.playermap[q.cidHashVal]? = some player)
      (started : States.roomStart.rank ≤ r.state.rank)
      (enough : r.roomConfig.minPlayers ≤ (r.vacated q).getPlaymapCount)
      (fresh : r.findInDisconnectedPlayers q.cidHashVal = none) :
      Change r (.remove q) ((r.vacated q).addToDisconnectedPlayers player) (r.farewell player)
  | drops {q : QconnIo} {player : Player} (found : r.playermap[q.cidHashVal]? = some player)
      (started : States.roomStart.rank ≤ r.state.rank)
      (enough : r.roomConfig.minPlayers ≤ (r.vacated q).getPlaymapCount)
      (known : (r.findInDisconnectedPlayers q.cidHashVal).isSome = true) :
      Change r (.remove q) (r.vacated q) (r.farewell player)
  | ticks {timer : Qtimer} {ptr : Nat} (listed : r.scheduler.timers = [timer])
      (named : timer.ptr = ptr) (waiting : r.state = .roomWaiting)
      (more : 1 < timer.count) (bound : timer.count ≤ maxCountDown) :
      Change r (.tick ptr)
        { r with scheduler := { r.scheduler with timers := [{ timer with count := timer.count - 1 }] } }
        [.observer (.roomEventCountdownToStart (timer.count - 1) maxCountDown)]
  | lastTick {timer : Qtimer} {ptr : Nat} (listed : r.scheduler.timers = [timer])
      (named : timer.ptr = ptr) (waiting : r.state = .roomWaiting)
      (last : timer.count = 1) :
      Change r (.tick ptr)
        { r with scheduler := { r.scheduler with timers := [] }, state := .roomStart } r.starting
  | relays {cidHash : Nat} {msg : Qstring} {player : Player}
      (found : r.playermap[cidHash]? = some player) :
      Change r (.message cidHash msg) r (r.passMessageToRoom player msg)
  | ignores {cidHash : Nat} {msg : Qstring} (absent : r.playermap[cidHash]? = none) :
      Change r (.message cidHash msg) r []

/-- The players and the kept seats of a room: each with the player object and
its player id. -/
def seats (r : Room) : List (Nat × Qstring) :=
  r.players.map (fun player => (player.ptr, player.pid)) ++
    r.disconnectedPlayers.map fun seat => (seat.playerPtr, seat.pid)

/-- A listed timer is the one countdown of the room. Without one, a waiting room
has a null timer pointer; after the last tick the pointer dangles. -/
inductive CountDown (r : Room) : Prop where
  | idle (none_listed : r.scheduler.timers = [])
      (unset : r.state = .roomWaiting → r.countDownTimer = none)
  | running (timer : Qtimer) (listed : r.scheduler.timers = [timer])
      (named : r.countDownTimer = some timer.ptr) (active : timer.finished = false)
      (positive : 1 ≤ timer.count) (bound : timer.count ≤ maxCountDown)
      (waiting : r.state = .roomWaiting) (enough : r.roomConfig.minPlayers ≤ r.getPlaymapCount)
      (space : 1 ≤ r.roomConfig.maxPlayers)

/-- Players sit under their own hashes, and no player object has two seats. -/
structure Seated (r : Room) : Prop where
  keyed : ∀ cidHash (player : Player),
    r.playermap[cidHash]? = some player → player.qconnection.cidHashVal = cidHash
  distinct : (r.seats.map Prod.fst).Nodup
  allocated : ∀ seat ∈ r.seats, seat.1 < r.allocatedPlayers

structure Inv (r : Room) : Prop where
  initialised : r.state ≠ .roomUninitialised
  seated : r.Seated
  capacity : r.getPlaymapCount ≤ max r.roomConfig.maxPlayers 0
  kept : r.disconnectedPlayers ≠ [] → States.roomStart.rank ≤ r.state.rank
  countdown : r.CountDown
  /-- A room with sensible bounds starts before it can be full and waiting. -/
  vacancy : r.state = .roomWaiting → r.roomConfig.minPlayers ≤ r.roomConfig.maxPlayers →
    1 ≤ r.roomConfig.maxPlayers → r.getPlaymapCount < r.roomConfig.maxPlayers

end Gearsdk.Room
